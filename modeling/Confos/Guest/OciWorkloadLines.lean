import Confos.Guest.OciWorkload

/-!
# The lines of the launch file and the lines the guest sees

A newline alone ends a line for the SSH daemon and for a verifier. The guest
ends one at every other line break too, so that a line can be cut short and a
marker can show up in the middle of one.
-/

namespace Confos.Guest.OciWorkload

open Confos.Library.Json
open Confos.Library.PythonText
open Confos.Library.Text

/-! ## Lines of the file -/

/-- The breaks that end a line for the guest alone. -/
def isOtherBreak (char : Char) : Bool :=
  isLineBreak char && char != '\n'

/-- The part of a line that the guest takes for the line. -/
def upToBreak (line : List Char) : List Char :=
  line.takeWhile fun char => !isOtherBreak char

/-- What stands behind the marker in the lines of the file. -/
def markerRests (content : List Char) : List (List Char) :=
  marked (content.splitOn '\n')

/-- What the guest sees behind a marker in the middle of a line. -/
def hiddenInLine (line : List Char) : List (List Char) :=
  marked (line.splitOnP isOtherBreak).tail

def hiddenMarkers (content : List Char) : List (List Char) :=
  (content.splitOn '\n').flatMap hiddenInLine

/-! ## The lines the guest sees -/

theorem isLineBreak_eq (char : Char) :
    isLineBreak char = (char == '\n' || isOtherBreak char) := by
  by_cases newline : char = '\n'
  · rw [newline]
    rfl
  · have different : (char == '\n') = false := by simpa using newline
    rw [isOtherBreak, bne, different]
    simp

theorem marked_cons (line : List Char) (lines : List (List Char)) :
    marked (line :: lines) =
      (stripStart marker line).toList ++ marked lines := by
  rw [marked, marked, List.filterMap_cons]
  cases stripStart marker line with
  | none => rfl
  | some rest => rfl

/-- No marker is in an empty line. -/
theorem marked_filter (lines : List (List Char)) :
    marked (lines.filter (· ≠ [])) = marked lines := by
  induction lines with
  | nil => rfl
  | cons line lines induction =>
      by_cases empty : line = []
      · rw [empty, List.filter_cons_of_neg (by simp), induction, marked_cons]
        rfl
      · rw [List.filter_cons_of_pos (by simpa using empty), marked_cons,
          marked_cons, induction]

/-- Cutting a line short keeps its marker. -/
theorem stripStart_upToBreak (line : List Char) :
    stripStart marker (upToBreak line) =
      (stripStart marker line).map upToBreak := by
  have solid : ∀ char ∈ marker, (!isOtherBreak char) = true :=
    List.all_eq_true.1 (by decide)
  cases stripped : stripStart marker line with
  | some rest =>
      rw [stripStart_eq_some_iff] at stripped
      rw [Option.map_some, stripStart_eq_some_iff, stripped, upToBreak,
        List.takeWhile_append_of_pos solid]
      rfl
  | none =>
      rw [Option.map_none, Option.eq_none_iff_forall_ne_some]
      intro rest found
      rw [stripStart_eq_some_iff] at found
      have whole :
          line =
            marker ++
              (rest ++ line.dropWhile fun char => !isOtherBreak char) := by
        rw [← List.append_assoc, ← found]
        exact List.takeWhile_append_dropWhile.symm
      rw [stripStart_eq_some_iff.2 whole] at stripped
      cases stripped

theorem marked_splitOnP (line : List Char) :
    marked (line.splitOnP isOtherBreak) =
      ((stripStart marker line).map upToBreak).toList ++
        hiddenInLine line := by
  rcases exists_splitOnP isOtherBreak line with ⟨others, pieces⟩
  rw [hiddenInLine, pieces, marked_cons, ← stripStart_upToBreak]
  rfl

/-- What the guest sees, line by line of the file. -/
theorem marked_splitlines (content : List Char) :
    marked (splitlines (universalNewlines content)) =
      (content.splitOn '\n').flatMap fun line =>
        ((stripStart marker line).map upToBreak).toList ++
          hiddenInLine line := by
  have same :
      content.splitOnP isLineBreak =
        (content.splitOn '\n').flatMap (·.splitOnP isOtherBreak) := by
    rw [splitOnP_congr fun char _ => isLineBreak_eq char, splitOnP_or]
    rfl
  rw [← marked_filter, filter_splitlines, wordsBy_universalNewlines rfl rfl,
    wordsBy, marked_filter, same]
  simp only [← marked_splitOnP]
  rw [marked, List.filterMap_flatMap]
  rfl

/-- No marker inside a line: the guest sees the marked lines, cut short. -/
theorem marked_splitlines_of_none_hidden
    {content : List Char} (none : hiddenMarkers content = []) :
    marked (splitlines (universalNewlines content)) =
      (markerRests content).map upToBreak := by
  rw [marked_splitlines, markerRests]
  rw [hiddenMarkers, List.flatMap_eq_nil_iff] at none
  generalize content.splitOn '\n' = lines at none
  induction lines with
  | nil => rfl
  | cons line lines induction =>
      rcases List.forall_mem_cons.1 none with ⟨first, later⟩
      rw [List.flatMap_cons, induction later, first, marked_cons,
        List.map_append, List.append_nil]
      cases stripStart marker line with
      | none => rfl
      | some rest => rfl

theorem length_marked_splitlines (content : List Char) :
    (marked (splitlines (universalNewlines content))).length =
      (markerRests content).length + (hiddenMarkers content).length := by
  rw [marked_splitlines, markerRests, hiddenMarkers]
  generalize content.splitOn '\n' = lines
  induction lines with
  | nil => rfl
  | cons line lines induction =>
      rw [List.flatMap_cons, marked_cons, List.flatMap_cons,
        List.length_append, induction, List.length_append,
        List.length_append, List.length_append, Option.toList_map,
        List.length_map]
      omega

/-! ## What the file says -/

/-- What stands behind a marker is an object that names a workload. -/
def IsWorkload (rest : List Char) (workload : Workload) : Prop :=
  ∃ members, Denotes rest (.object members) ∧ Names members workload

/--
The outcome that the lines of the file call for: nothing without a marker, the
workload of the only marked line, and a refusal of everything else.
-/
def Means (content : List Char) (outcome : Outcome) : Prop :=
  match markerRests content with
  | [] => outcome = .none
  | [rest] =>
      (∃ workload, IsWorkload rest workload ∧ outcome = .spec workload) ∨
        ((¬∃ workload, IsWorkload rest workload) ∧
          ∃ message, outcome = .invalid message)
  | _ => ∃ message, outcome = .invalid message

/-- The part of a line that the guest takes for the next line. -/
def fromBreak (line : List Char) : List Char :=
  line.dropWhile fun char => !isOtherBreak char

/--
The file reads alike for the guest and for the others. No marker is hidden
inside a line, unless the file is refused anyway; and the one marked line is
what the interpreter can bear and, if it is a workload with or without what is
behind its first break, only blanks are behind that break.
-/
def ReadAlike (limits : Limits) (content : List Char) : Prop :=
  match markerRests content with
  | [] => hiddenMarkers content = []
  | [rest] =>
      if hiddenMarkers content = [] then
        loads limits (upToBreak rest) ≠ .error .interpreter ∧
          ((∃ workload,
              IsWorkload rest workload ∨
                IsWorkload (upToBreak rest) workload) →
            ∀ char ∈ fromBreak rest, isBlank char = true)
      else
        ¬∃ workload, IsWorkload rest workload
  | _ => True

theorem upToBreak_append_fromBreak (line : List Char) :
    upToBreak line ++ fromBreak line = line :=
  List.takeWhile_append_dropWhile

theorem IsWorkload.unique
    {rest : List Char} {workload other : Workload}
    (names : IsWorkload rest workload) (also : IsWorkload rest other) :
    workload = other := by
  rcases names with ⟨members, denotes, namesOne⟩
  rcases also with ⟨others, denotesOther, namesOther⟩
  cases denotes.unique denotesOther
  have read := checkSpec_eq_ok.2 ⟨members, rfl, namesOne⟩
  have readOther := checkSpec_eq_ok.2 ⟨members, rfl, namesOther⟩
  rw [read] at readOther
  cases readOther
  rfl

/-- Blanks behind the break leave the workload what it is. -/
theorem isWorkload_upToBreak
    {rest : List Char} {workload : Workload}
    (blank : ∀ char ∈ fromBreak rest, isBlank char = true) :
    IsWorkload rest workload ↔ IsWorkload (upToBreak rest) workload := by
  have same :
      ∀ limits members,
        loads limits rest = .ok (.object members) ↔
          loads limits (upToBreak rest) = .ok (.object members) := by
    intro limits members
    rw [← @loads_append_blanks limits (upToBreak rest) _ members blank,
      upToBreak_append_fromBreak]
  constructor
  · rintro ⟨members, ⟨limits, read⟩, names⟩
    exact ⟨members, ⟨limits, (same limits members).1 read⟩, names⟩
  · rintro ⟨members, ⟨limits, read⟩, names⟩
    exact ⟨members, ⟨limits, (same limits members).2 read⟩, names⟩

/-- A line that is a workload, cut short or not, has blanks in between. -/
theorem blank_of_isWorkload
    {rest : List Char} {workload other : Workload}
    (whole : IsWorkload rest workload)
    (cut : IsWorkload (upToBreak rest) other) :
    ∀ char ∈ fromBreak rest, isBlank char = true := by
  rcases whole with ⟨members, denotes, -⟩
  rcases cut with ⟨others, denotesCut, -⟩
  rw [← upToBreak_append_fromBreak rest] at denotes
  exact blank_of_denotes denotesCut denotes

/-! ## What the guest makes of a line -/

theorem readSpec_eq_spec
    {limits : Limits} {line : List Char} {workload : Workload}
    (bearable : loads limits line ≠ .error .interpreter) :
    readSpec limits line = .spec workload ↔ IsWorkload line workload := by
  constructor
  · intro read
    rw [readSpec] at read
    split at read
    · cases read
    · cases read
    · next value loaded =>
        split at read
        · next found checked =>
            cases read
            rcases checkSpec_eq_ok.1 checked with ⟨members, rfl, names⟩
            exact ⟨members, ⟨limits, loaded⟩, names⟩
        · cases read
  · rintro ⟨members, denotes, names⟩
    rw [readSpec, loads_of_denotes denotes bearable]
    simp only [checkSpec_eq_ok.2 ⟨members, rfl, names⟩]

theorem readSpec_eq_invalid
    {limits : Limits} {line : List Char}
    (bearable : loads limits line ≠ .error .interpreter)
    (none : ¬∃ workload, IsWorkload line workload) :
    ∃ message, readSpec limits line = .invalid message := by
  cases read : readSpec limits line with
  | invalid message => exact ⟨message, rfl⟩
  | spec workload =>
      exact absurd ⟨workload, (readSpec_eq_spec bearable).1 read⟩ none
  | none =>
      rw [readSpec] at read
      split at read
      · cases read
      · cases read
      · split at read
        · cases read
        · cases read
  | uncaught =>
      rw [readSpec] at read
      split at read
      · cases read
      · next failed => exact absurd failed bearable
      · split at read
        · cases read
        · cases read

theorem readSpec_eq_uncaught
    {limits : Limits} {line : List Char}
    (unbearable : loads limits line = .error .interpreter) :
    readSpec limits line = .uncaught := by
  rw [readSpec, unbearable]

theorem means_of_one
    {content rest : List Char} {outcome : Outcome}
    (one : markerRests content = [rest]) :
    Means content outcome ↔
      (∃ workload, IsWorkload rest workload ∧ outcome = .spec workload) ∨
        ((¬∃ workload, IsWorkload rest workload) ∧
          ∃ message, outcome = .invalid message) := by
  simp only [Means, one]

/-- Two markers, wherever they are, are refused. -/
theorem workload_of_two
    {limits : Limits} {content : List Char}
    (two :
      2 ≤ (markerRests content).length + (hiddenMarkers content).length) :
    ∃ message, workload limits content = .invalid message := by
  rw [← length_marked_splitlines] at two
  rw [workload]
  split
  · next seen => exact absurd two (by simp [seen])
  · next line seen => exact absurd two (by simp [seen])
  · exact ⟨_, rfl⟩

theorem workload_of_one
    {limits : Limits} {content rest : List Char}
    (one : markerRests content = [rest]) (none : hiddenMarkers content = []) :
    workload limits content = readSpec limits (upToBreak rest) := by
  rw [workload, marked_splitlines_of_none_hidden none, one]
  rfl

theorem workload_eq_none_iff {limits : Limits} {content : List Char} :
    workload limits content = .none ↔
      markerRests content = [] ∧ hiddenMarkers content = [] := by
  have total := length_marked_splitlines content
  rw [workload]
  constructor
  · intro returned
    split at returned
    · next seen =>
        rw [seen, List.length_nil] at total
        exact
          ⟨List.eq_nil_of_length_eq_zero (by omega),
            List.eq_nil_of_length_eq_zero (by omega)⟩
    · rw [readSpec] at returned
      split at returned
      · cases returned
      · cases returned
      · split at returned
        · cases returned
        · cases returned
    · cases returned
  · rintro ⟨rests, hidden⟩
    rw [rests, hidden] at total
    rw [List.eq_nil_of_length_eq_zero total]

/-- The one marked line, with nothing hidden in it. -/
theorem readSpec_means_iff
    {limits : Limits} {rest : List Char} :
    ((∃ workload,
        IsWorkload rest workload ∧
          readSpec limits (upToBreak rest) = .spec workload) ∨
        ((¬∃ workload, IsWorkload rest workload) ∧
          ∃ message, readSpec limits (upToBreak rest) = .invalid message)) ↔
      loads limits (upToBreak rest) ≠ .error .interpreter ∧
        ((∃ workload,
            IsWorkload rest workload ∨
              IsWorkload (upToBreak rest) workload) →
          ∀ char ∈ fromBreak rest, isBlank char = true) := by
  constructor
  · intro means
    have bearable : loads limits (upToBreak rest) ≠ .error .interpreter := by
      intro unbearable
      rw [readSpec_eq_uncaught unbearable] at means
      rcases means with ⟨_, -, impossible⟩ | ⟨-, _, impossible⟩
      · cases impossible
      · cases impossible
    refine ⟨bearable, ?_⟩
    rcases means with ⟨workload, whole, read⟩ | ⟨none, message, refused⟩
    · intro _
      exact
        blank_of_isWorkload whole ((readSpec_eq_spec bearable).1 read)
    · rintro ⟨workload, whole | cut⟩
      · exact absurd ⟨workload, whole⟩ none
      · rw [(readSpec_eq_spec bearable).2 cut] at refused
        cases refused
  · rintro ⟨bearable, blanks⟩
    by_cases some : ∃ workload, IsWorkload rest workload
    · rcases some with ⟨workload, whole⟩
      have cut :=
        (isWorkload_upToBreak (blanks ⟨workload, Or.inl whole⟩)).1 whole
      exact Or.inl ⟨workload, whole, (readSpec_eq_spec bearable).2 cut⟩
    · refine Or.inr ⟨some, readSpec_eq_invalid bearable ?_⟩
      rintro ⟨workload, cut⟩
      exact
        some
          ⟨workload,
            (isWorkload_upToBreak (blanks ⟨workload, Or.inr cut⟩)).2 cut⟩

/-- The guest does what the lines of the file call for exactly if it reads
them as the others do. -/
theorem workload_means_iff_readAlike (limits : Limits) (content : List Char) :
    Means content (workload limits content) ↔ ReadAlike limits content := by
  cases rests : markerRests content with
  | nil =>
      simp only [Means, ReadAlike, rests, workload_eq_none_iff, true_and]
  | cons rest others =>
      cases others with
      | nil =>
          rw [means_of_one rests]
          simp only [ReadAlike, rests]
          by_cases none : hiddenMarkers content = []
          · rw [if_pos none, workload_of_one rests none]
            exact readSpec_means_iff
          · have two :
                2 ≤ (markerRests content).length +
                  (hiddenMarkers content).length := by
              have some := List.length_pos_iff.2 none
              rw [rests, List.length_singleton]
              omega
            rcases @workload_of_two limits content two with ⟨message, refused⟩
            rw [if_neg none, refused]
            constructor
            · rintro (⟨_, -, impossible⟩ | ⟨noWorkload, -⟩)
              · cases impossible
              · exact noWorkload
            · intro noWorkload
              exact Or.inr ⟨noWorkload, message, rfl⟩
      | cons second others =>
          have two :
              2 ≤ (markerRests content).length +
                (hiddenMarkers content).length := by
            rw [rests, List.length_cons, List.length_cons]
            omega
          simp only [Means, ReadAlike, rests, iff_true]
          exact workload_of_two two

/-- A key line whose comment has a line separator and a marker in it. -/
def commentContent : List Char :=
  ("ssh-ed25519 AAAA me\u2028# confos-oci-workload/v1 ".toList ++
    "\x7b\"image\":\"localhost/app@sha256:".toList) ++
      List.replicate 64 '0' ++ "\"\x7d\n".toList

/-- A workload with a line separator in one of its arguments. -/
def separatorContent : List Char :=
  ("# confos-oci-workload/v1 ".toList ++
    "\x7b\"image\":\"localhost/app@sha256:".toList) ++
      List.replicate 64 '0' ++ "\",\"command\":[\"\u2028\"]\x7d\n".toList

/-- What the interpreter bears unless it is told otherwise. -/
def defaultLimits : Limits :=
  { digits := 4300, depth := 995 }

/-- A comment can name the workload, and a workload can be refused for a
character in a string. -/
theorem workload_misreads :
    ¬Means commentContent (workload defaultLimits commentContent) ∧
      ¬Means separatorContent (workload defaultLimits separatorContent) := by
  constructor
  · have rests : markerRests commentContent = [] := by decide +kernel
    intro means
    simp only [Means, rests] at means
    exact absurd means (by decide +kernel)
  · have rests :
        markerRests separatorContent =
          [(separatorContent.drop marker.length).dropLast] := by
      decide +kernel
    have refused :
        workload defaultLimits separatorContent =
          .invalid "the workload line is not JSON" := by
      decide +kernel
    have uncut :
        readSpec defaultLimits
            (separatorContent.drop marker.length).dropLast =
          .spec
            { image :=
                codesOf "localhost/app@sha256:" ++ List.replicate 64 48
              command := [[0x2028]]
              env := [] } := by
      decide +kernel
    have bearable :
        loads defaultLimits
            (separatorContent.drop marker.length).dropLast ≠
          .error .interpreter := by
      intro failed
      rw [readSpec_eq_uncaught failed] at uncut
      cases uncut
    rw [means_of_one rests, refused]
    rintro (⟨_, -, impossible⟩ | ⟨noWorkload, -⟩)
    · cases impossible
    · exact noWorkload ⟨_, (readSpec_eq_spec bearable).1 uncut⟩

end Confos.Guest.OciWorkload
