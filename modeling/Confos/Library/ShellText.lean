import Confos.Library.ByteStrings

/-!
# Texts of the shell

What a command substitution holds of an output, and the lines of `sha256sum`.
Such a line tells the digest and the name, and a text that was cut short is
taken for a digest only if the whole digest is there.
-/

namespace Confos.Library.ShellText

open Confos.Library.ByteStrings

def newline : UInt8 := 0x0A

/-- What `$(…)` holds of an output: no NUL, and no newline at the end. -/
def substituted (output : Bytes) : Bytes :=
  ((output.filter (· ≠ 0)).reverse.dropWhile (· = newline)).reverse

/-- A digest as `sha256sum` prints it. -/
def digestText {size : Nat} (hash : Bytes → Block size) (content : Bytes) :
    Bytes :=
  utf8Bytes (hexHash hash content)

/-- What `sha256sum` prints of files, whose names it prints as they are. -/
def sumLines {size : Nat} (hash : Bytes → Block size)
    (files : List (Bytes × Bytes)) : Bytes :=
  files.flatMap fun file =>
    digestText hash file.2 ++ utf8Bytes "  " ++ file.1 ++ [newline]

section

variable {size : Nat} {hash : Bytes → Block size}

theorem digestText_eq (content : Bytes) :
    digestText hash content =
      ((hash content).bytes.flatMap hexDigits).map fun char =>
        UInt8.ofNat char.toNat := by
  have ascii : ∀ value < 16, (Nat.digitChar value).toNat < 128 := by decide
  rw [digestText, hexHash, hexEncode, utf8Bytes_ofList]
  generalize (hash content).bytes = bytes
  induction bytes with
  | nil => rfl
  | cons byte bytes induction =>
      have high := Nat.div_lt_of_lt_mul (show byte.toNat < 16 * 16 from
        byte.toNat_lt)
      have low := Nat.mod_lt byte.toNat (show 0 < 16 by decide)
      rw [List.flatMap_cons, List.flatMap_append, List.map_append, induction,
        hexDigits, List.flatMap_cons, List.flatMap_cons, List.flatMap_nil,
        utf8EncodeChar_of_lt (ascii _ high), utf8EncodeChar_of_lt (ascii _ low)]
      rfl

theorem length_digestText (content : Bytes) :
    (digestText hash content).length = 2 * size := by
  rw [digestText_eq, List.length_map, length_flatMap_hexDigits,
    Block.length_eq]

/-- A digest has neither a NUL nor a newline in it. -/
theorem plain_digestText (content : Bytes) :
    ∀ byte ∈ digestText hash content, byte ≠ 0 ∧ byte ≠ newline := by
  have plain :
      ∀ value < 16,
        UInt8.ofNat (Nat.digitChar value).toNat ≠ 0 ∧
          UInt8.ofNat (Nat.digitChar value).toNat ≠ newline := by
    decide
  intro byte member
  rw [digestText_eq] at member
  rcases List.mem_map.1 member with ⟨char, ofDigits, rfl⟩
  rcases List.mem_flatMap.1 ofDigits with ⟨source, -, ofByte⟩
  have high := Nat.div_lt_of_lt_mul (show source.toNat < 16 * 16 from
    source.toNat_lt)
  have low := Nat.mod_lt source.toNat (show 0 < 16 by decide)
  rcases List.mem_pair.1 ofByte with rfl | rfl
  · exact plain _ high
  · exact plain _ low

theorem hash_eq_of_digestText
    {left right : Bytes}
    (same : digestText hash left = digestText hash right) :
    hash left = hash right := by
  have texts := congrArg utf8Text? same
  rw [digestText, digestText, utf8Text?_utf8Bytes, utf8Text?_utf8Bytes] at texts
  exact Block.ext (hexEncode_injective (Option.some.inj texts))

/-! ## Substituted outputs -/

theorem substituted_of_plain
    {text : Bytes} (plain : ∀ byte ∈ text, byte ≠ 0 ∧ byte ≠ newline) :
    substituted text = text ∧ substituted (text ++ [newline]) = text := by
  have noNul : text.filter (· ≠ 0) = text :=
    List.filter_eq_self.2 fun byte member =>
      decide_eq_true (plain byte member).1
  have unended : text.reverse.dropWhile (· = newline) = text.reverse := by
    cases reversed : text.reverse with
    | nil => rfl
    | cons last front =>
        have member : last ∈ text :=
          List.mem_reverse.1 (reversed ▸ List.mem_cons_self)
        exact
          List.dropWhile_cons_of_neg (by simpa using (plain last member).2)
  constructor
  · rw [substituted, noNul, unended, List.reverse_reverse]
  · have filtered :
        (text ++ [newline]).filter (· ≠ 0) = text ++ [newline] := by
      rw [List.filter_append, noNul]
      rfl
    rw [substituted, filtered, List.reverse_append, List.reverse_singleton,
      List.singleton_append, List.dropWhile_cons_of_pos (by simp), unended,
      List.reverse_reverse]

/-- An output that was cut short passes for a digest only if it is whole. -/
theorem digestText_of_substituted
    {content expected output : Bytes}
    (cut : output <+: digestText hash expected ++ [newline])
    (same : digestText hash content = substituted output) :
    digestText hash content = digestText hash expected := by
  have plain := @plain_digestText _ hash expected
  rcases List.prefix_concat_iff.1 cut with rfl | shorter
  · rw [same, (substituted_of_plain plain).2]
  · have plainOutput :=
      substituted_of_plain fun byte member =>
        plain byte (shorter.subset member)
    rw [plainOutput.1] at same
    have length := congrArg List.length same
    rw [length_digestText, ← @length_digestText _ hash expected] at length
    rw [same]
    exact shorter.eq_of_length length.symm

/-! ## Lines of digests -/

/-- A text up to its first newline is told apart from what follows. -/
theorem append_newline_inj
    {left right leftRest rightRest : Bytes}
    (leftPlain : newline ∉ left) (rightPlain : newline ∉ right)
    (same : left ++ newline :: leftRest = right ++ newline :: rightRest) :
    left = right ∧ leftRest = rightRest := by
  induction left generalizing right with
  | nil =>
      cases right with
      | nil => exact ⟨rfl, (List.cons.inj same).2⟩
      | cons byte right =>
          exact absurd ((List.cons.inj same).1 ▸ List.mem_cons_self) rightPlain
  | cons byte left induction =>
      cases right with
      | nil =>
          exact
            absurd ((List.cons.inj same).1.symm ▸ List.mem_cons_self) leftPlain
      | cons other right =>
          rcases List.cons.inj same with ⟨first, rest⟩
          rcases
            induction (fun member => leftPlain (List.mem_cons_of_mem _ member))
              (fun member => rightPlain (List.mem_cons_of_mem _ member))
              rest with
            ⟨sameRest, behind⟩
          exact ⟨by rw [first, sameRest], behind⟩

/-- Equal lines are lines of the same names and digests. -/
theorem eq_of_sumLines
    {left right : List (Bytes × Bytes)} {known : Set Bytes}
    (noCollision : Set.InjOn hash known)
    (leftPlain : ∀ file ∈ left, newline ∉ file.1 ∧ file.2 ∈ known)
    (rightPlain : ∀ file ∈ right, newline ∉ file.1 ∧ file.2 ∈ known)
    (same : sumLines hash left = sumLines hash right) : left = right := by
  have line (file : Bytes × Bytes) (files : List (Bytes × Bytes)) :
      sumLines hash (file :: files) =
        digestText hash file.2 ++
          (utf8Bytes "  " ++
            (file.1 ++ newline :: sumLines hash files)) := by
    simp [sumLines]
  induction left generalizing right with
  | nil =>
      cases right with
      | nil => rfl
      | cons file files =>
          rw [line] at same
          have ends := congrArg List.length same
          simp [sumLines] at ends
  | cons file files induction =>
      rcases List.forall_mem_cons.1 leftPlain with
        ⟨⟨unbroken, hashed⟩, leftRest⟩
      cases right with
      | nil =>
          rw [line] at same
          have ends := congrArg List.length same
          simp [sumLines] at ends
      | cons other others =>
          rcases List.forall_mem_cons.1 rightPlain with
            ⟨⟨otherUnbroken, otherHashed⟩, rightRest⟩
          rw [line, line] at same
          rcases
            List.append_inj same
              (by rw [length_digestText, length_digestText]) with
            ⟨sameDigest, afterDigest⟩
          rcases
            append_newline_inj unbroken otherUnbroken
              (List.append_cancel_left afterDigest) with
            ⟨sameName, sameRest⟩
          have sameContent : file.2 = other.2 :=
            noCollision hashed otherHashed (hash_eq_of_digestText sameDigest)
          rw [induction leftRest rightRest sameRest,
            Prod.ext sameName sameContent]

end

end Confos.Library.ShellText
