import Confos.Library.ByteStrings

/-!
# Paths as bytes

A path is joined to a directory by its bytes.  An absolute path takes the place
of the directory, and nothing else of the path is looked at, so what is joined
lies in the directory only if it is one plain name.
-/

namespace Confos.Library.BytePaths

open Confos.Library.ByteStrings

def slash : UInt8 := 0x2F

def isAbsolute (path : Bytes) : Bool :=
  path.head? = some slash

/-- `Path::join`. -/
def join (dir path : Bytes) : Bytes :=
  if isAbsolute path then
    path
  else if dir.getLast?.any (· ≠ slash) then
    dir ++ slash :: path
  else
    dir ++ path

/-- The name of one file: it leads nowhere else and has no separator. -/
def IsPlainName (name : Bytes) : Prop :=
  name ≠ [] ∧ slash ∉ name ∧ name ≠ utf8Bytes "." ∧ name ≠ utf8Bytes ".."

instance (name : Bytes) : Decidable (IsPlainName name) :=
  inferInstanceAs (Decidable (_ ∧ _ ∧ _ ∧ _))

/-- What stands behind the last slash of a path. -/
def baseName (path : Bytes) : Bytes :=
  (path.reverse.takeWhile (· ≠ slash)).reverse

/-- A directory joined with one plain name. -/
def IsIn (dir path : Bytes) : Prop :=
  ∃ name, IsPlainName name ∧ path = join dir name

section

variable {dir name path : Bytes}

theorem IsPlainName.isAbsolute_eq (plain : IsPlainName name) :
    isAbsolute name = false := by
  rw [isAbsolute, decide_eq_false_iff_not]
  intro starts
  exact plain.2.1 (List.mem_of_head? starts)

/-- What stands in front of a joined path that is not absolute. -/
def stem (dir : Bytes) : Bytes :=
  if dir.getLast?.any (· ≠ slash) then dir ++ [slash] else dir

theorem join_of_relative (relative : isAbsolute path = false) :
    join dir path = stem dir ++ path := by
  rw [join, stem, relative, if_neg Bool.false_ne_true]
  split
  · rw [List.append_assoc, List.singleton_append]
  · rfl

theorem join_of_absolute (absolute : isAbsolute path = true) :
    join dir path = path :=
  if_pos absolute

/-- The stem of a directory is empty or ends in a slash. -/
theorem baseName_stem_append (without : slash ∉ name) :
    baseName (stem dir ++ name) = name := by
  have solid : ∀ byte ∈ name.reverse, decide (byte ≠ slash) = true := by
    intro byte member
    rw [decide_eq_true_iff]
    rintro rfl
    exact without (List.mem_reverse.1 member)
  have stops : (stem dir).reverse.takeWhile (· ≠ slash) = [] := by
    rw [stem]
    split
    · rw [List.reverse_append, List.reverse_singleton]
      exact List.takeWhile_cons_of_neg (by simp)
    · next ends =>
        cases last : dir.getLast? with
        | none =>
            rw [List.getLast?_eq_none_iff.1 last]
            rfl
        | some byte =>
            rw [last] at ends
            have isSlash : byte = slash := by simpa using ends
            rw [← List.head?_reverse] at last
            rcases List.head?_eq_some_iff.1 last with ⟨rest, parts⟩
            rw [parts]
            exact List.takeWhile_cons_of_neg (by simp [isSlash])
  rw [baseName, List.reverse_append, List.takeWhile_append_of_pos solid,
    stops, List.append_nil, List.reverse_reverse]

/-- A joined path is in the directory if it is plain, or was there already. -/
theorem isIn_join_iff :
    IsIn dir (join dir path) ↔
      IsPlainName path ∨
        isAbsolute path = true ∧ IsPlainName (baseName path) ∧
          path = join dir (baseName path) := by
  constructor
  · rintro ⟨name, plain, joined⟩
    rw [join_of_relative plain.isAbsolute_eq] at joined
    cases absolute : isAbsolute path with
    | true =>
        rw [join_of_absolute absolute] at joined
        have base : baseName path = name := by
          rw [joined]
          exact baseName_stem_append plain.2.1
        refine Or.inr ⟨rfl, ?_, ?_⟩
        · rw [base]
          exact plain
        · rw [base, join_of_relative plain.isAbsolute_eq]
          exact joined
    | false =>
        rw [join_of_relative absolute] at joined
        rw [List.append_cancel_left joined]
        exact Or.inl plain
  · rintro (plain | ⟨absolute, plain, joined⟩)
    · exact ⟨path, plain, rfl⟩
    · rw [join_of_absolute absolute]
      exact ⟨baseName path, plain, joined⟩

theorem IsPlainName.isIn_join (plain : IsPlainName name) :
    IsIn dir (join dir name) :=
  ⟨name, plain, rfl⟩

end

end Confos.Library.BytePaths
