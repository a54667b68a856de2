import Mathlib.Data.List.Basic

/-!
# Paths as texts

The parts between the slashes of a path, and where they lead from a directory
if no part is a symbolic link.
-/

namespace Confos.Library.PathTexts

/-- The names that lead from the root directory. -/
abbrev Place := List String

def isAbsolute (text : String) : Bool :=
  text.toList.head? = some '/'

/-- What stands between the slashes. -/
def segments (text : String) : List String :=
  (text.toList.splitOn '/').map String.ofList

/-- A part that leads somewhere else. -/
def isStep (part : String) : Bool :=
  part ≠ "" && part ≠ "."

/-- The parts of a path that lead somewhere. -/
def components (text : String) : List String :=
  (segments text).filter isStep

/-- Where one part leads. -/
def follow (here : Place) (part : String) : Place :=
  if part = ".." then here.dropLast else here ++ [part]

/-- Where parts lead, from the root directory or from another one. -/
def lead (here : Place) (absolute : Bool) (parts : List String) : Place :=
  (parts.filter isStep).foldl follow (if absolute then [] else here)

/-- Where a path leads from a directory. -/
def resolve (here : Place) (text : String) : Place :=
  lead here (isAbsolute text) (segments text)

/-- Where the parts in front of the last one lead. -/
def directoryOf (here : Place) (text : String) : Place :=
  lead here (isAbsolute text) (segments text).dropLast

/-- What stands behind the last slash. -/
def lastSegment (text : String) : String :=
  (segments text).getLastD ""

/-! ## The end of a path -/

/-- A text without a separator prolongs the last piece. -/
theorem splitOn_append
    {separator : Char} {back : List Char} (without : separator ∉ back)
    (front : List Char) :
    ∃ pieces last,
      front.splitOn separator = pieces ++ [last] ∧
        (front ++ back).splitOn separator = pieces ++ [last ++ back] := by
  induction front with
  | nil => exact ⟨[], [], rfl, List.splitOn_eq_singleton without⟩
  | cons char front induction =>
      rcases induction with ⟨pieces, last, split, splitAppend⟩
      rw [List.cons_append, List.splitOn_cons_eq_if_modifyHead,
        List.splitOn_cons_eq_if_modifyHead, split, splitAppend]
      by_cases separates : (char == separator) = true
      · rw [if_pos separates, if_pos separates]
        exact ⟨[] :: pieces, last, rfl, rfl⟩
      · rw [if_neg separates, if_neg separates]
        cases pieces with
        | nil => exact ⟨[], char :: last, rfl, rfl⟩
        | cons piece pieces => exact ⟨(char :: piece) :: pieces, last, rfl, rfl⟩

/-- An ending without a slash prolongs the last segment. -/
theorem segments_append
    {ending : String} (without : '/' ∉ ending.toList) (text : String) :
    segments (text ++ ending) =
      (segments text).dropLast ++ [lastSegment text ++ ending] := by
  rcases splitOn_append without text.toList with
    ⟨pieces, last, split, splitAppend⟩
  rw [segments, lastSegment, segments, String.toList_append, split, splitAppend,
    List.map_append, List.map_append, List.map_singleton, List.map_singleton,
    List.dropLast_concat, List.getLastD_concat, String.ofList_append,
    String.ofList_toList]

theorem isAbsolute_append
    {ending : String} (without : '/' ∉ ending.toList) (text : String) :
    isAbsolute (text ++ ending) = isAbsolute text := by
  rw [isAbsolute, isAbsolute, String.toList_append]
  cases text.toList with
  | cons letter letters => rfl
  | nil =>
      rw [List.nil_append]
      cases ended : ending.toList with
      | nil => rfl
      | cons letter letters =>
          rw [ended] at without
          have other : letter ≠ '/' := fun slash =>
            without (slash ▸ List.mem_cons_self)
          simp [other]

theorem lead_concat
    {part : String} (leads : part ≠ "" ∧ part ≠ "." ∧ part ≠ "..")
    (here : Place) (absolute : Bool) (parts : List String) :
    lead here absolute (parts ++ [part]) =
      lead here absolute parts ++ [part] := by
  have kept : isStep part = true := by
    simp [isStep, leads.1, leads.2.1]
  rw [lead, lead, List.filter_append, List.filter_cons_of_pos kept,
    List.filter_nil, List.foldl_append, List.foldl_cons, List.foldl_nil, follow,
    if_neg leads.2.2]

/-- An ending that is no dot makes a name of whatever stands in front of it. -/
theorem name_append
    {ending : String} (long : 2 < ending.toList.length) (text : String) :
    text ++ ending ≠ "" ∧ text ++ ending ≠ "." ∧ text ++ ending ≠ ".." := by
  have longer : 2 < (text ++ ending).toList.length := by
    rw [String.toList_append, List.length_append]
    omega
  refine ⟨?_, ?_, ?_⟩
  all_goals
    intro same
    rw [same] at longer
    exact absurd longer (by decide)

/-- Where a path leads that ends in such a name. -/
theorem resolve_append
    {ending : String} (without : '/' ∉ ending.toList)
    (long : 2 < ending.toList.length) (here : Place) (text : String) :
    resolve here (text ++ ending) =
      directoryOf here text ++ [lastSegment text ++ ending] := by
  rw [resolve, isAbsolute_append without, segments_append without,
    lead_concat (name_append long _), directoryOf]

/-- A name without a slash leads to an entry of the directory itself. -/
theorem segments_of_notMem
    {text : String} (name : '/' ∉ text.toList) : segments text = [text] := by
  rw [segments, List.splitOn_eq_singleton name, List.map_singleton,
    String.ofList_toList]

theorem directoryOf_of_notMem
    {text : String} (name : '/' ∉ text.toList) (here : Place) :
    directoryOf here text = here := by
  have relative : isAbsolute text = false := by
    rw [isAbsolute]
    cases letters : text.toList with
    | nil => rfl
    | cons letter rest =>
        rw [letters] at name
        have other : letter ≠ '/' := fun slash =>
          name (slash ▸ List.mem_cons_self)
        simp [other]
  rw [directoryOf, segments_of_notMem name, relative]
  rfl

theorem lastSegment_of_notMem
    {text : String} (name : '/' ∉ text.toList) : lastSegment text = text := by
  rw [lastSegment, segments_of_notMem name]
  rfl

end Confos.Library.PathTexts
