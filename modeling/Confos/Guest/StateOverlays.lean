import Confos.Library.ByteStrings
import Confos.Library.Fallible
import Confos.Library.Repeats
import Confos.Library.Text
import Mathlib.Data.List.Infix

/-!
# The writable state of the guest

The initrd mounts one overlay for each directory that the files of
`/usr/lib/confai/state.d` list.  It passes over a path that occurs, between
two blanks, in the text of the paths it has mounted so far; a path with a
blank in it can so hide another one.
-/

namespace Confos.Guest.StateOverlays

open Confos.Library.ByteStrings
open Confos.Library.Fallible
open Confos.Library.Repeats
open Confos.Library.Text (toDigits_injective)

/-! ## Reading a file -/

def newline : UInt8 := 0x0a
def blank : UInt8 := 0x20
def tab : UInt8 := 0x09
def carriageReturn : UInt8 := 0x0d
def hash : UInt8 := 0x23

def isIfsBlank (byte : UInt8) : Bool :=
  byte = blank || byte = tab

/-- What `read -r dir` stores of a line: without NULs and outer blanks. -/
def readLine (line : Bytes) : Bytes :=
  (((line.filter (· ≠ 0)).dropWhile isIfsBlank).reverse.dropWhile
    isIfsBlank).reverse

/-- `while read -r dir || [ -n "$dir" ]`: the last line may lack its newline. -/
def readLines (content : Bytes) : List Bytes :=
  let lines := (content.splitOn newline).map readLine
  lines.dropLast ++ (lines.getLast?.toList.filter (· ≠ []))

/-- `${dir%$'\r'}` -/
def stripReturn (dir : Bytes) : Bytes :=
  if dir.getLast? = some carriageReturn then dir.dropLast else dir

/-- Neither empty nor a comment. -/
def isEntry (dir : Bytes) : Bool :=
  dir ≠ [] && dir.head? ≠ some hash

/-- The entries of the files, in the order in which they are read. -/
def entries (files : List (String × Bytes)) : List Bytes :=
  (files.flatMap fun file => (readLines file.2).map stripReturn).filter
    isEntry

/-! ## Mounting -/

def sysroot (dir : Bytes) : Bytes :=
  utf8Bytes "/sysroot/" ++ dir

/-- `mount_overlay "/sysroot/$dir" "$STATE_INDEX"` -/
structure Mount where
  dir : Bytes
  index : Nat
deriving DecidableEq, Repr

namespace Mount

def target (mount : Mount) : Bytes :=
  sysroot mount.dir

def stateDir (mount : Mount) : String :=
  "/state/" ++ toString mount.index

def upperDir (mount : Mount) : String :=
  mount.stateDir ++ "/upper"

def workDir (mount : Mount) : String :=
  mount.stateDir ++ "/work"

end Mount

/-- What the kernel answers, given the overlays mounted so far. -/
structure Kernel where
  isDirectory : List Mount → Bytes → Bool
  mounts : List Mount → Mount → Bool

/-- Why a boot stops. -/
inductive Stop where
  | noConf
  | notDirectory (dir : Bytes) (conf : String)
  | mountFailed (mount : Mount)
deriving DecidableEq, Repr

/-- `STATE_DIRS`, `STATE_INDEX`, and the overlays mounted. -/
structure State where
  stateDirs : Bytes := []
  stateIndex : Nat := 0
  mounted : List Mount := []
deriving DecidableEq, Repr

/-- `case " $STATE_DIRS " in *" $dir "*)` -/
def Listed (stateDirs dir : Bytes) : Prop :=
  (blank :: dir ++ [blank]) <:+: (blank :: stateDirs ++ [blank])

instance (stateDirs dir : Bytes) : Decidable (Listed stateDirs dir) :=
  inferInstanceAs (Decidable (_ <:+: _))

section

variable (kernel : Kernel)

/-- `mount_overlay`; under `set -e` a failed command stops the boot. -/
def mountOverlay (state : State) (dir : Bytes) : Except Stop State :=
  let mount : Mount := { dir, index := state.stateIndex + 1 }
  if kernel.mounts state.mounted mount then
    .ok
      { stateDirs := state.stateDirs ++ blank :: dir
        stateIndex := state.stateIndex + 1
        mounted := state.mounted ++ [mount] }
  else
    .error (.mountFailed mount)

/-- What the loop does with an entry. -/
def reach (conf : String) (state : State) (dir : Bytes) :
    Except Stop State :=
  if Listed state.stateDirs dir then
    .ok state
  else if kernel.isDirectory state.mounted (sysroot dir) then
    mountOverlay kernel state dir
  else
    .error (.notDirectory dir conf)

/-- The body of the loop over the lines of a file. -/
def visit (conf : String) (state : State) (line : Bytes) :
    Except Stop State :=
  let dir := stripReturn line
  if isEntry dir then reach kernel conf state dir else .ok state

def visitFile (state : State) (file : String × Bytes) :
    Except Stop State :=
  (readLines file.2).foldlM (visit kernel file.1) state

/-- The loop up to "state overlays mounted"; without files the pattern stays
as it is and names none. -/
def mountState (files : List (String × Bytes)) : Except Stop State :=
  if files = [] then .error .noConf else files.foldlM (visitFile kernel) {}

/-! ## The law -/

/-- The overlays are those of the entries. -/
structure Matches (entries : List Bytes) (mounted : List Mount) :
    Prop where
  one : ∀ dir ∈ entries, (mounted.map Mount.target).count (sysroot dir) = 1
  only : ∀ mount ∈ mounted, ∃ dir ∈ entries, mount.target = sysroot dir
  apart : (mounted.flatMap fun mount => [mount.upperDir, mount.workDir]).Nodup
  directories :
    ∀ dir ∈ entries, ∃ earlier mount later,
      mounted = earlier ++ mount :: later ∧ mount.target = sysroot dir ∧
        kernel.isDirectory earlier (sysroot dir) = true

end

/-- The paths joined as `STATE_DIRS` joins them. -/
def joined (dirs : List Bytes) : Bytes :=
  dirs.flatMap (blank :: ·)

/-- A path is hidden by others if it occurs in their text. -/
def Hidden (dirs : List Bytes) (dir : Bytes) : Prop :=
  Listed (joined dirs) dir

instance (dirs : List Bytes) (dir : Bytes) : Decidable (Hidden dirs dir) :=
  inferInstanceAs (Decidable (Listed _ _))

/-! ## What hides a path -/

theorem joined_append (before after : List Bytes) :
    joined (before ++ after) = joined before ++ joined after :=
  List.flatMap_append

/-- What follows a path in the text begins with a blank. -/
theorem joined_append_blank (dirs : List Bytes) :
    ∃ rest, joined dirs ++ [blank] = blank :: rest := by
  cases dirs with
  | nil => exact ⟨[], rfl⟩
  | cons dir dirs => exact ⟨dir ++ joined dirs ++ [blank], by simp [joined]⟩

theorem covers_hidden : Covers Hidden where
  of_mem := by
    intro dirs dir member
    rcases List.append_of_mem member with ⟨before, after, rfl⟩
    rcases joined_append_blank after with ⟨rest, follows⟩
    refine ⟨blank :: joined before, rest, ?_⟩
    calc
      blank :: joined before ++ (blank :: dir ++ [blank]) ++ rest
      _ = blank :: (joined before ++ (blank :: dir ++ blank :: rest)) := by
          simp
      _ = blank :: joined (before ++ dir :: after) ++ [blank] := by
          rw [← follows]
          simp [joined]
  mono := by
    rintro dirs dir more ⟨before, after, found⟩
    rcases joined_append_blank more with ⟨rest, follows⟩
    refine ⟨before, after ++ rest, ?_⟩
    calc
      before ++ (blank :: dir ++ [blank]) ++ (after ++ rest)
      _ = blank :: joined dirs ++ (blank :: rest) := by
          rw [← List.append_assoc, found]
          simp
      _ = blank :: joined (dirs ++ more) ++ [blank] := by
          rw [← follows, joined_append]
          simp

/-- The blanks of the text are those between the paths. -/
theorem mem_splitOn_append_joined
    {dirs : List Bytes} {first piece : Bytes}
    (noBlank : ∀ other ∈ dirs, blank ∉ other) (plain : blank ∉ first)
    (member : piece ∈ (first ++ joined dirs).splitOn blank) :
    piece = first ∨ piece ∈ dirs := by
  induction dirs generalizing first with
  | nil =>
      rw [joined, List.flatMap_nil, List.append_nil,
        List.splitOn_eq_singleton plain] at member
      exact Or.inl (List.mem_singleton.1 member)
  | cons dir dirs induction =>
      have dirPlain := noBlank dir List.mem_cons_self
      rw [joined, List.flatMap_cons, List.cons_append,
        List.splitOn_append_cons_self, List.splitOn_eq_singleton plain]
        at member
      rcases List.mem_append.1 member with here | later
      · exact Or.inl (List.mem_singleton.1 here)
      · rcases
          induction
            (fun other known => noBlank other (List.mem_cons_of_mem _ known))
            dirPlain later with rfl | known
        · exact Or.inr List.mem_cons_self
        · exact Or.inr (List.mem_cons_of_mem _ known)

/-- A path without a blank is hidden by no others without blanks. -/
theorem not_hidden_of_no_blank
    {dirs : List Bytes} {dir : Bytes}
    (noBlank : ∀ other ∈ dirs, blank ∉ other) (plain : blank ∉ dir)
    (nonempty : dir ≠ []) (absent : dir ∉ dirs) : ¬ Hidden dirs dir := by
  rintro ⟨before, after, found⟩
  have split : before ++ blank :: (dir ++ blank :: after) =
      [] ++ blank :: (([] ++ joined dirs) ++ blank :: []) := by
    simpa using found
  have pieces := congrArg (List.splitOn blank) split
  rw [List.splitOn_append_cons_self, List.splitOn_append_cons_self,
    List.splitOn_append_cons_self, List.splitOn_append_cons_self,
    List.splitOn_eq_singleton plain, List.splitOn_nil] at pieces
  have member :
      dir ∈ [[]] ++ (([] ++ joined dirs).splitOn blank ++ [[]]) := by
    rw [← pieces]
    simp
  rcases List.mem_append.1 member with outer | inner
  · exact nonempty (List.mem_singleton.1 outer)
  rcases List.mem_append.1 inner with inside | outer
  · rcases
      mem_splitOn_append_joined noBlank List.not_mem_nil inside with
      empty | known
    · exact nonempty empty
    · exact absent known
  · exact nonempty (List.mem_singleton.1 outer)

/-- Where no entry has a blank in it none is hidden. -/
theorem noneHidden_of_no_blank
    {files : List (String × Bytes)}
    (noBlank : ∀ dir ∈ entries files, blank ∉ dir) :
    NoneCovered Hidden (entries files) := by
  intro before dir after split absent
  have member : dir ∈ entries files := by
    rw [split]
    simp
  have entry : isEntry dir = true := (List.mem_filter.1 member).2
  apply not_hidden_of_no_blank
  · intro other known
    rw [List.mem_eraseDups] at known
    apply noBlank other
    rw [split]
    exact List.mem_append_left _ known
  · exact noBlank dir member
  · rintro rfl
    cases entry
  · rw [List.mem_eraseDups]
    exact absent

/-! ## The run -/

section

variable {kernel : Kernel}

theorem mountOverlay_eq_ok
    {state after : State} {dir : Bytes}
    (ran : mountOverlay kernel state dir = .ok after) :
    after =
      { stateDirs := state.stateDirs ++ blank :: dir
        stateIndex := state.stateIndex + 1
        mounted :=
          state.mounted ++ [{ dir, index := state.stateIndex + 1 }] } := by
  rw [mountOverlay] at ran
  split at ran
  · cases ran
    rfl
  · cases ran

theorem reach_eq_ok
    {conf : String} {state after : State} {dir : Bytes}
    (ran : reach kernel conf state dir = .ok after) :
    Listed state.stateDirs dir ∧ after = state ∨
      ¬ Listed state.stateDirs dir ∧
        kernel.isDirectory state.mounted (sysroot dir) = true ∧
          mountOverlay kernel state dir = .ok after := by
  rw [reach] at ran
  split at ran
  · next listed =>
      cases ran
      exact Or.inl ⟨listed, rfl⟩
  · next fresh =>
      split at ran
      · next found => exact Or.inr ⟨fresh, found, ran⟩
      · cases ran

/-- What the loop has done when it has seen some entries. -/
structure Reached (kernel : Kernel) (seen : List Bytes) (state : State) :
    Prop where
  dirs : state.mounted.map Mount.dir = kept Hidden seen
  stateDirs : state.stateDirs = joined (kept Hidden seen)
  stateIndex : state.stateIndex = state.mounted.length
  indices :
    state.mounted.map Mount.index = List.range' 1 state.mounted.length
  directories :
    ∀ earlier mount later,
      state.mounted = earlier ++ mount :: later →
        kernel.isDirectory earlier mount.target = true

theorem reached_nil : Reached kernel [] {} where
  dirs := rfl
  stateDirs := rfl
  stateIndex := rfl
  indices := rfl
  directories := by
    intro earlier mount later split
    simp at split

theorem Reached.reach
    {conf : String} {seen : List Bytes} {state after : State} {dir : Bytes}
    (reached : Reached kernel seen state)
    (ran : reach kernel conf state dir = .ok after) :
    Reached kernel (seen ++ [dir]) after := by
  rcases reach_eq_ok ran with ⟨listed, rfl⟩ | ⟨fresh, found, mounting⟩
  · rw [reached.stateDirs] at listed
    change Hidden (kept Hidden seen) dir at listed
    have same : kept Hidden (seen ++ [dir]) = kept Hidden seen := by
      rw [kept_append_singleton, if_pos listed]
    exact
      { dirs := by rw [same, reached.dirs]
        stateDirs := by rw [same, reached.stateDirs]
        stateIndex := reached.stateIndex
        indices := reached.indices
        directories := reached.directories }
  · cases mountOverlay_eq_ok mounting
    rw [reached.stateDirs] at fresh
    change ¬ Hidden (kept Hidden seen) dir at fresh
    have more : kept Hidden (seen ++ [dir]) = kept Hidden seen ++ [dir] := by
      rw [kept_append_singleton, if_neg fresh]
    refine ⟨?_, ?_, ?_, ?_, ?_⟩
    · rw [List.map_append, reached.dirs, more]
      rfl
    · rw [more, joined_append, reached.stateDirs]
      simp [joined]
    · rw [List.length_append, reached.stateIndex]
      rfl
    · rw [List.map_append, reached.indices, List.length_append,
        List.length_singleton, List.range'_concat, reached.stateIndex]
      simp [Nat.add_comm]
    · intro earlier mount later split
      rcases List.eq_nil_or_concat later with rfl | ⟨rest, last, rfl⟩
      · rcases List.append_inj' split rfl with ⟨rfl, same⟩
        cases same
        exact found
      · rw [List.concat_eq_append, ← List.cons_append, ← List.append_assoc]
          at split
        rcases List.append_inj' split rfl with ⟨same, -⟩
        exact reached.directories earlier mount rest same

theorem Reached.visit
    {conf : String} {seen : List Bytes} {state after : State} {line : Bytes}
    (reached : Reached kernel seen state)
    (ran : visit kernel conf state line = .ok after) :
    Reached kernel (seen ++ [stripReturn line].filter isEntry) after := by
  rw [StateOverlays.visit] at ran
  split at ran
  · next entry =>
      rw [List.filter_singleton, entry]
      exact reached.reach ran
  · next skipped =>
      cases ran
      rw [List.filter_singleton, Bool.eq_false_iff.2 skipped]
      rw [cond_false, List.append_nil]
      exact reached

theorem Reached.visitFile
    {seen : List Bytes} {state after : State} {file : String × Bytes}
    (reached : Reached kernel seen state)
    (ran : visitFile kernel state file = .ok after) :
    Reached kernel
      (seen ++ ((readLines file.2).map stripReturn).filter isEntry)
      after := by
  refine
    foldlM_invariant
      (fun lines current =>
        Reached kernel (seen ++ (lines.map stripReturn).filter isEntry)
          current)
      ?_ ?_ ran
  · rw [List.map_nil, List.filter_nil, List.append_nil]
    exact reached
  · intro consumed line before next holds step
    rw [List.map_append, List.filter_append, ← List.append_assoc]
    exact holds.visit step

/-- Where the loop ends it has seen the entries of all files. -/
theorem mountState_eq_ok
    {files : List (String × Bytes)} {state : State}
    (ran : mountState kernel files = .ok state) :
    Reached kernel (entries files) state := by
  rw [mountState] at ran
  split at ran
  · cases ran
  · refine
      foldlM_invariant
        (fun consumed current => Reached kernel (entries consumed) current)
        reached_nil ?_ ran
    intro consumed file before next holds step
    have more :
        entries (consumed ++ [file]) =
          entries consumed ++
            ((readLines file.2).map stripReturn).filter isEntry := by
      rw [entries, entries, List.flatMap_append, List.filter_append]
      simp
    rw [more]
    exact holds.visitFile step

/-! ## The overlays -/

theorem sysroot_injective : Function.Injective sysroot :=
  fun _ _ same => List.append_cancel_left same

theorem toList_stateDir (mount : Mount) :
    mount.stateDir.toList = "/state/".toList ++ Nat.toDigits 10 mount.index := by
  rw [Mount.stateDir, String.toList_append,
    show toString mount.index = Nat.repr mount.index from rfl,
    Nat.toList_repr]

theorem index_eq_of_stateDir_eq
    {left right : Mount} (same : left.stateDir = right.stateDir) :
    left.index = right.index := by
  have lists := congrArg String.toList same
  rw [toList_stateDir, toList_stateDir] at lists
  exact toDigits_injective (List.append_cancel_left lists)

/-- No upper directory is a work directory. -/
theorem upperDir_ne_workDir (left right : Mount) :
    left.upperDir ≠ right.workDir := by
  intro same
  have lasts := congrArg (fun dir => dir.toList.getLast?) same
  simp [Mount.upperDir, Mount.workDir] at lasts

/-- The upper and work directories of overlays tell their numbers. -/
theorem index_eq_of_mem_dirs
    {left right : Mount} {dir : String}
    (leftDir : dir ∈ [left.upperDir, left.workDir])
    (rightDir : dir ∈ [right.upperDir, right.workDir]) :
    left.index = right.index := by
  simp only [List.mem_cons, List.not_mem_nil, or_false]
    at leftDir rightDir
  rcases leftDir with rfl | rfl
  · rcases rightDir with same | same
    · exact index_eq_of_stateDir_eq ((String.append_left_inj _).1 same)
    · exact (upperDir_ne_workDir left right same).elim
  · rcases rightDir with same | same
    · exact (upperDir_ne_workDir right left same.symm).elim
    · exact index_eq_of_stateDir_eq ((String.append_left_inj _).1 same)

theorem nodup_dirs (mount : Mount) :
    [mount.upperDir, mount.workDir].Nodup := by
  rw [List.nodup_cons, List.mem_singleton]
  exact ⟨upperDir_ne_workDir mount mount, List.nodup_singleton _⟩

theorem Reached.apart
    {seen : List Bytes} {state : State}
    (reached : Reached kernel seen state) :
    (state.mounted.flatMap fun mount =>
      [mount.upperDir, mount.workDir]).Nodup := by
  rw [List.nodup_flatMap]
  refine ⟨fun mount _ => nodup_dirs mount, ?_⟩
  have distinct : (state.mounted.map Mount.index).Nodup := by
    rw [reached.indices]
    exact List.nodup_range'
  rw [List.nodup_iff_pairwise_ne, List.pairwise_map] at distinct
  apply distinct.imp
  intro left right different dir leftDir rightDir
  exact different (index_eq_of_mem_dirs leftDir rightDir)

theorem Reached.targets
    {seen : List Bytes} {state : State}
    (reached : Reached kernel seen state) :
    state.mounted.map Mount.target = (kept Hidden seen).map sysroot := by
  rw [← reached.dirs, List.map_map]
  rfl

/-- The overlays are those of the entries if the loop keeps every entry. -/
theorem Reached.matches
    {seen : List Bytes} {state : State}
    (reached : Reached kernel seen state)
    (all : ∀ dir ∈ seen, dir ∈ kept Hidden seen) :
    Matches kernel seen state.mounted where
  one := by
    intro dir member
    rw [reached.targets]
    exact
      List.count_eq_one_of_mem
        ((nodup_kept covers_hidden seen).map sysroot_injective)
        (List.mem_map_of_mem (all dir member))
  only := by
    intro mount member
    refine ⟨mount.dir, ?_, rfl⟩
    have keptDir : mount.dir ∈ kept Hidden seen := by
      rw [← reached.dirs]
      exact List.mem_map_of_mem member
    exact mem_of_mem_kept keptDir
  apart := reached.apart
  directories := by
    intro dir member
    have found := all dir member
    rw [← reached.dirs] at found
    rcases List.mem_map.1 found with ⟨mount, mounted, rfl⟩
    rcases List.append_of_mem mounted with ⟨earlier, later, split⟩
    exact
      ⟨earlier, mount, later, split, rfl,
        reached.directories earlier mount later split⟩

/-- The loop mounts exactly the overlays of the entries if and only if no
entry is hidden by the different ones before it when it comes up first. -/
theorem matches_iff_noneHidden
    {files : List (String × Bytes)} {state : State}
    (ran : mountState kernel files = .ok state) :
    Matches kernel (entries files) state.mounted ↔
      NoneCovered Hidden (entries files) := by
  have reached := mountState_eq_ok ran
  rw [← forall_mem_kept_iff covers_hidden]
  constructor
  · intro overlays dir member
    have counted := overlays.one dir member
    have target : sysroot dir ∈ state.mounted.map Mount.target := by
      rw [← List.count_pos_iff, counted]
      exact Nat.one_pos
    rw [reached.targets] at target
    rcases List.mem_map.1 target with ⟨other, known, same⟩
    rw [← sysroot_injective same]
    exact known
  · exact reached.matches

end

/-! ## Two images -/

/-- A kernel that finds every directory and mounts every overlay. -/
def willing : Kernel where
  isDirectory _ _ := true
  mounts _ _ := true

/-- Two files that list one directory both, one of them with CRLF. -/
def plainFiles : List (String × Bytes) :=
  [("10-base.conf", utf8Bytes "# base\nvar\n\nhome\n"),
    ("50-app.conf", utf8Bytes "home\r\nsrv")]

def plainState : State where
  stateDirs := utf8Bytes " var home srv"
  stateIndex := 3
  mounted :=
    [{ dir := utf8Bytes "var", index := 1 },
      { dir := utf8Bytes "home", index := 2 },
      { dir := utf8Bytes "srv", index := 3 }]

theorem mountState_plain : mountState willing plainFiles = .ok plainState := by
  rfl

/-- Plain paths are all mounted, and hide none. -/
theorem matches_iff_noneHidden_plain :
    Matches willing (entries plainFiles) plainState.mounted ↔
      NoneCovered Hidden (entries plainFiles) :=
  matches_iff_noneHidden mountState_plain

/-- The directory `bar` is the end of one with a blank in its name. -/
def blankFiles : List (String × Bytes) :=
  [("50-app.conf", utf8Bytes "foo bar\nbar\n")]

def blankState : State where
  stateDirs := utf8Bytes " foo bar"
  stateIndex := 1
  mounted := [{ dir := utf8Bytes "foo bar", index := 1 }]

/-- A kernel in whose image there is a directory `foo bar` alone. -/
def withoutBar : Kernel where
  isDirectory _ dir := dir = sysroot (utf8Bytes "foo bar")
  mounts _ _ := true

/-- A listed directory gets no overlay, nor does the boot stop where it is
missing. -/
theorem not_matches_hiddenPath :
    mountState withoutBar blankFiles = .ok blankState ∧
      utf8Bytes "bar" ∈ entries blankFiles ∧
        withoutBar.isDirectory blankState.mounted
            (sysroot (utf8Bytes "bar")) = false ∧
          ¬ Matches withoutBar (entries blankFiles) blankState.mounted := by
  have listed : utf8Bytes "bar" ∈ entries blankFiles := by
    decide +kernel
  have unmounted :
      (blankState.mounted.map Mount.target).count
        (sysroot (utf8Bytes "bar")) = 0 := by
    decide +kernel
  refine ⟨by rfl, listed, by decide +kernel, fun overlays => ?_⟩
  have mounted := overlays.one _ listed
  rw [unmounted] at mounted
  exact absurd mounted Nat.zero_ne_one

end Confos.Guest.StateOverlays
