import Confos.Image.RunCommand
import Confos.Library.Checks
import Confos.Library.Numerals
import Confos.Library.Text

/-!
# Sizes of memory and disks

Three functions look at a size such as `4G`: one checks the memory of a
manifest, one reads the size of a disk by its bytes, and one reads the memory
that is measured by its characters.
-/

namespace Confos.Image.SizeReaders

open Confos.Image.RunCommand
open Confos.Library.ByteStrings
open Confos.Library.Checks
open Confos.Library.Numerals
open Confos.Library.Text

/-! ## Slices of a text -/

def textBytes (text : List Char) : Bytes :=
  utf8Bytes (String.ofList text)

/-- The characters in the first bytes of a text; no slice splits a character. -/
def sliceTo : List Char → Nat → Checked (List Char)
  | _, 0 => .ok []
  | [], _ + 1 => panicked
  | char :: text, length + 1 =>
      if char.utf8Size ≤ length + 1 then
        (sliceTo text (length + 1 - char.utf8Size)).map (char :: ·)
      else
        panicked

/-! ## The readers -/

def isAsciiDigit (byte : UInt8) : Bool :=
  '0'.toUInt8 ≤ byte && byte ≤ '9'.toUInt8

/-- The check of a size as it is made, by the bytes of the text. -/
def isMemorySizeBytes (size : Bytes) : Bool :=
  match size.getLast? with
  | none => false
  | some last =>
      if last ∈ "KMGTkmgt".toList.map Char.toUInt8 then
        size.dropLast.all isAsciiDigit
      else
        size.all isAsciiDigit

/-- The number of a size and what it is multiplied by, by the last byte. -/
def splitLastByte (text : List Char) (last : UInt8) :
    Checked (List Char × Nat) :=
  let front := sliceTo text ((textBytes text).length - 1)
  if last = 'K'.toUInt8 ∨ last = 'k'.toUInt8 then
    front.map (·, 1024)
  else if last = 'M'.toUInt8 ∨ last = 'm'.toUInt8 then
    front.map (·, 1024 * 1024)
  else if last = 'G'.toUInt8 ∨ last = 'g'.toUInt8 then
    front.map (·, 1024 * 1024 * 1024)
  else if last = 'T'.toUInt8 ∨ last = 't'.toUInt8 then
    front.map (·, 1024 * 1024 * 1024 * 1024)
  else if isAsciiDigit last then
    .ok (text, 1)
  else
    refuse s!"invalid size suffix in {(String.ofList text).quote} (use K/M/G/T or plain bytes)"

def parseSizeToBytes (size : String) : Checked Nat :=
  let text := trim size.toList
  if text = [] then
    refuse "empty size"
  else
    match (textBytes text).getLast? with
    | none => panicked
    | some last => do
        let (num, mult) ← splitLastByte text last
        match parseU64 num with
        | none => refuse s!"invalid size number in {(String.ofList text).quote}"
        | some value =>
            if value * mult < 2 ^ 64 then
              .ok (value * mult)
            else
              refuse s!"size too large: {(String.ofList text).quote}"

/-- The number of a size and what it is multiplied by, by the last character. -/
def splitLastChar (text : List Char) (last : Char) :
    Checked (List Char × Nat) :=
  let front := sliceTo text ((textBytes text).length - 1)
  if last = 'k' ∨ last = 'K' then
    front.map (·, 1024)
  else if last = 'm' ∨ last = 'M' then
    front.map (·, 1024 * 1024)
  else if last = 'g' ∨ last = 'G' then
    front.map (·, 1024 * 1024 * 1024)
  else if last = 'T' ∨ last = 't' then
    front.map (·, 1024 * 1024 * 1024 * 1024)
  else if last.isDigit then
    .ok (text, 1)
  else
    refuse s!"Unknown memory size suffix in '{String.ofList text}'"

def parseMemorySize (size : String) : Checked Nat :=
  let text := trim size.toList
  if text = [] then
    refuse "Empty memory size"
  else
    match text.getLast? with
    | none => refuse "Empty memory size"
    | some last => do
        let (numPart, multiplier) ← splitLastChar text last
        match parseU64 numPart with
        | none => refuse "Invalid memory size number"
        | some num =>
            if num * multiplier < 2 ^ 64 then
              .ok (num * multiplier)
            else
              refuse "Memory size overflow"

/-! ## Characters and their bytes -/

/-- The last byte of a character; only an ASCII character is that byte. -/
def lastByte (char : Char) : UInt8 :=
  if char.toNat < 128 then
    char.toUInt8
  else
    UInt8.ofNat (char.toNat % 64 + 128)

theorem getLast?_utf8EncodeChar (char : Char) :
    (String.utf8EncodeChar char).getLast? = some (lastByte char) := by
  rw [String.utf8EncodeChar, lastByte]
  by_cases ascii : char.toNat < 128
  · have small : char.val.toNat ≤ 127 := Nat.le_of_lt_succ ascii
    rw [if_pos ascii, if_pos small]
    rfl
  · have large : ¬ char.val.toNat ≤ 127 :=
      fun small => ascii (Nat.lt_succ_of_le small)
    rw [if_neg ascii, if_neg large]
    split
    · rfl
    · split
      · rfl
      · rfl

theorem toNat_toUInt8 {char : Char} (ascii : char.toNat < 128) :
    char.toUInt8.toNat = char.toNat :=
  Nat.mod_eq_of_lt (ascii.trans (by decide))

theorem toNat_lastByte (char : Char) :
    (lastByte char).toNat =
      if char.toNat < 128 then char.toNat else char.toNat % 64 + 128 := by
  rw [lastByte]
  split
  · next ascii => exact toNat_toUInt8 ascii
  · exact Nat.mod_eq_of_lt (by omega)

theorem lastByte_eq_iff
    {char ascii : Char} (small : ascii.toNat < 128) :
    lastByte char = ascii.toUInt8 ↔ char = ascii := by
  rw [← UInt8.toNat_inj, toNat_lastByte, toNat_toUInt8 small,
    ← Char.toNat_inj]
  split
  · rfl
  · omega

theorem isAsciiDigit_lastByte (char : Char) :
    isAsciiDigit (lastByte char) = char.isDigit := by
  rw [Bool.eq_iff_iff, isDigit_iff, isAsciiDigit, Bool.and_eq_true,
    decide_eq_true_iff, decide_eq_true_iff, UInt8.le_iff_toNat_le,
    UInt8.le_iff_toNat_le, toNat_lastByte]
  have zero : '0'.toUInt8.toNat = 48 := rfl
  have nine : '9'.toUInt8.toNat = 57 := rfl
  rw [zero, nine]
  split
  · rfl
  · omega

theorem textBytes_cons (char : Char) (text : List Char) :
    textBytes (char :: text) = String.utf8EncodeChar char ++ textBytes text := by
  rw [textBytes, textBytes, utf8Bytes_ofList, utf8Bytes_ofList,
    List.flatMap_cons]

theorem textBytes_concat (front : List Char) (last : Char) :
    textBytes (front ++ [last]) =
      textBytes front ++ String.utf8EncodeChar last := by
  rw [textBytes, textBytes, utf8Bytes_ofList, utf8Bytes_ofList,
    List.flatMap_append, List.flatMap_singleton]

theorem getLast?_textBytes_concat (front : List Char) (last : Char) :
    (textBytes (front ++ [last])).getLast? = some (lastByte last) := by
  rw [textBytes_concat, List.getLast?_append, getLast?_utf8EncodeChar]
  rfl

/-- Without its last byte a text is a text again if its end is ASCII. -/
theorem sliceTo_textBytes (front rest : List Char) :
    sliceTo (front ++ rest) (textBytes front).length = .ok front := by
  induction front with
  | nil =>
      have empty : (textBytes []).length = 0 := rfl
      rw [empty, sliceTo]
  | cons char front induction =>
      have length :
          (textBytes (char :: front)).length =
            char.utf8Size + (textBytes front).length := by
        rw [textBytes_cons, List.length_append, String.length_utf8EncodeChar]
      have notEmpty : char.utf8Size + (textBytes front).length ≠ 0 :=
        (Nat.add_pos_left char.utf8Size_pos _).ne'
      rcases Nat.exists_eq_succ_of_ne_zero notEmpty with ⟨before, size⟩
      rw [length, List.cons_append, size, sliceTo, ← Nat.succ_eq_add_one,
        ← size, if_pos (Nat.le_add_right _ _), Nat.add_sub_cancel_left,
        induction]
      rfl

/-- The digits of a text are the digits among its bytes. -/
theorem all_isAsciiDigit_utf8EncodeChar (char : Char) :
    (String.utf8EncodeChar char).all isAsciiDigit = char.isDigit := by
  by_cases ascii : char.toNat < 128
  · have last := isAsciiDigit_lastByte char
    rw [lastByte, if_pos ascii] at last
    rw [utf8EncodeChar_of_lt ascii, List.all_cons, List.all_nil,
      Bool.and_true]
    exact last
  · have notDigit : char.isDigit = false := by
      rw [Bool.eq_false_iff, ne_eq, isDigit_iff]
      omega
    have member : lastByte char ∈ String.utf8EncodeChar char :=
      List.mem_of_getLast? (getLast?_utf8EncodeChar char)
    rw [notDigit, Bool.eq_false_iff]
    intro all
    have lastDigit := List.all_eq_true.1 all _ member
    rw [isAsciiDigit_lastByte, notDigit] at lastDigit
    cases lastDigit

theorem all_isAsciiDigit_textBytes (text : List Char) :
    (textBytes text).all isAsciiDigit = text.all Char.isDigit := by
  induction text with
  | nil => rfl
  | cons char text induction =>
      rw [textBytes_cons, List.all_append, all_isAsciiDigit_utf8EncodeChar,
        induction, List.all_cons]

/-- The check is the one by bytes. -/
theorem isMemorySize_eq_bytes (size : String) :
    isMemorySize size = isMemorySizeBytes (utf8Bytes size) := by
  have bytes : utf8Bytes size = textBytes size.toList := by
    rw [textBytes, String.ofList_toList]
  rw [isMemorySize, isMemorySizeBytes, bytes]
  rcases List.eq_nil_or_concat size.toList with empty | ⟨front, last, parts⟩
  · rw [empty]
    rfl
  rw [List.concat_eq_append] at parts
  rw [parts, List.getLast?_concat, getLast?_textBytes_concat]
  dsimp only
  have sameSuffix :
      lastByte last ∈ "KMGTkmgt".toList.map Char.toUInt8 ↔
        last ∈ ['K', 'M', 'G', 'T', 'k', 'm', 'g', 't'] := by
    have chars :
        "KMGTkmgt".toList = ['K', 'M', 'G', 'T', 'k', 'm', 'g', 't'] := rfl
    rw [chars]
    simp (disch := decide) only [List.map_cons, List.map_nil, List.mem_cons,
      List.not_mem_nil, lastByte_eq_iff]
  by_cases suffix : last ∈ ['K', 'M', 'G', 'T', 'k', 'm', 'g', 't']
  · have ascii : last.toNat < 128 := by
      have small :
          ['K', 'M', 'G', 'T', 'k', 'm', 'g', 't'].all (·.toNat < 128) =
            true := by
        decide
      exact of_decide_eq_true (List.all_eq_true.1 small last suffix)
    rw [if_pos suffix, if_pos (sameSuffix.2 suffix), textBytes_concat,
      utf8EncodeChar_of_lt ascii, List.dropLast_concat, List.dropLast_concat,
      all_isAsciiDigit_textBytes]
  · rw [if_neg suffix, if_neg (mt sameSuffix.1 suffix),
      all_isAsciiDigit_textBytes]

/-! ## What is read -/

/-- The power of 1024 that a suffix stands for. -/
def suffixPower (last : Char) : Option Nat :=
  if last = 'K' ∨ last = 'k' then
    some 1
  else if last = 'M' ∨ last = 'm' then
    some 2
  else if last = 'G' ∨ last = 'g' then
    some 3
  else if last = 'T' ∨ last = 't' then
    some 4
  else
    none

/-- The number and the multiplier of a size with this last character. -/
def readSplit (front : List Char) (last : Char) : Option (List Char × Nat) :=
  match suffixPower last with
  | some power => some (front, 1024 ^ power)
  | none => if last.isDigit then some (front ++ [last], 1) else none

def readScaled (split : List Char × Nat) : Option Nat :=
  match parseU64 split.1 with
  | some value =>
      if value * split.2 < 2 ^ 64 then some (value * split.2) else none
  | none => none

/-- The number that a trimmed size is read as. -/
def readSize (text : List Char) : Option Nat :=
  match text.getLast? with
  | some last => (readSplit text.dropLast last).bind readScaled
  | none => none

/-- The text in front of an ASCII character is cut off by bytes. -/
theorem sliceTo_front
    (front : List Char) {last : Char} (ascii : last.toNat < 128) :
    sliceTo (front ++ [last]) ((textBytes (front ++ [last])).length - 1) =
      .ok front := by
  have size : (textBytes (front ++ [last])).length - 1 = (textBytes front).length := by
    rw [textBytes_concat, List.length_append, String.length_utf8EncodeChar]
    have single : last.utf8Size = 1 :=
      Char.utf8Size_eq_one_iff.2 (Nat.le_of_lt_succ ascii)
    rw [single]
    rfl
  rw [size, sliceTo_textBytes]

theorem reads_front
    (front : List Char) {last upper lower : Char} (multiplier : Nat)
    (isSuffix : last = upper ∨ last = lower)
    (upperAscii : upper.toNat < 128) (lowerAscii : lower.toNat < 128) :
    Reads
      ((sliceTo (front ++ [last])
        ((textBytes (front ++ [last])).length - 1)).map (·, multiplier))
      (some (front, multiplier)) := by
  have ascii : last.toNat < 128 := by
    rcases isSuffix with rfl | rfl
    · exact upperAscii
    · exact lowerAscii
  rw [sliceTo_front front ascii]
  rfl

/-- The suffixes in turn, however the last character is compared with them. -/
theorem reads_suffixes (front : List Char) (last : Char) (problem : String) :
    let slice :=
      sliceTo (front ++ [last]) ((textBytes (front ++ [last])).length - 1)
    Reads
      (if last = 'K' ∨ last = 'k' then
        slice.map (·, 1024)
      else if last = 'M' ∨ last = 'm' then
        slice.map (·, 1024 * 1024)
      else if last = 'G' ∨ last = 'g' then
        slice.map (·, 1024 * 1024 * 1024)
      else if last = 'T' ∨ last = 't' then
        slice.map (·, 1024 * 1024 * 1024 * 1024)
      else if last.isDigit then
        .ok (front ++ [last], 1)
      else
        refuse problem)
      (readSplit front last) := by
  intro slice
  rw [readSplit, suffixPower]
  by_cases kilo : last = 'K' ∨ last = 'k'
  · rw [if_pos kilo, if_pos kilo]
    exact reads_front front 1024 kilo (by decide) (by decide)
  rw [if_neg kilo, if_neg kilo]
  by_cases mega : last = 'M' ∨ last = 'm'
  · rw [if_pos mega, if_pos mega]
    exact reads_front front (1024 * 1024) mega (by decide) (by decide)
  rw [if_neg mega, if_neg mega]
  by_cases giga : last = 'G' ∨ last = 'g'
  · rw [if_pos giga, if_pos giga]
    exact reads_front front (1024 * 1024 * 1024) giga (by decide) (by decide)
  rw [if_neg giga, if_neg giga]
  by_cases tera : last = 'T' ∨ last = 't'
  · rw [if_pos tera, if_pos tera]
    exact
      reads_front front (1024 * 1024 * 1024 * 1024) tera (by decide)
        (by decide)
  rw [if_neg tera, if_neg tera]
  by_cases digit : last.isDigit = true
  · rw [if_pos digit]
    simp only [digit, if_true]
    rfl
  · rw [if_neg digit]
    simp only [digit]
    exact Reads.refused problem

theorem reads_splitLastByte (front : List Char) (last : Char) :
    Reads (splitLastByte (front ++ [last]) (lastByte last))
      (readSplit front last) := by
  rw [splitLastByte]
  simp (disch := decide) only [lastByte_eq_iff, isAsciiDigit_lastByte]
  exact reads_suffixes front last _

theorem reads_splitLastChar (front : List Char) (last : Char) :
    Reads (splitLastChar (front ++ [last]) last) (readSplit front last) := by
  rw [splitLastChar]
  simp only [@or_comm (last = 'k'), @or_comm (last = 'm'),
    @or_comm (last = 'g')]
  exact reads_suffixes front last _

theorem reads_scaled
    (split : List Char × Nat) (invalid tooLarge : String) :
    Reads
      (match parseU64 split.1 with
      | none => refuse invalid
      | some value =>
          if value * split.2 < 2 ^ 64 then
            .ok (value * split.2)
          else
            refuse tooLarge)
      (readScaled split) := by
  rw [readScaled]
  cases parseU64 split.1 with
  | none => exact Reads.refused invalid
  | some value => exact Reads.ite rfl (Reads.refused tooLarge)

/-- Both readers read the trimmed size in the same way. -/
theorem reads_parseSizeToBytes (size : String) :
    Reads (parseSizeToBytes size) (readSize (trim size.toList)) := by
  rw [parseSizeToBytes]
  rcases List.eq_nil_or_concat (trim size.toList) with
    empty | ⟨front, last, parts⟩
  · rw [empty]
    exact Reads.refused "empty size"
  · rw [List.concat_eq_append] at parts
    have notEmpty : front ++ [last] ≠ [] := List.concat_ne_nil _ _
    rw [parts, readSize, List.getLast?_concat, List.dropLast_concat]
    dsimp only
    rw [if_neg notEmpty, getLast?_textBytes_concat]
    apply (reads_splitLastByte front last).bind
    intro split
    exact reads_scaled split _ _

theorem reads_parseMemorySize (size : String) :
    Reads (parseMemorySize size) (readSize (trim size.toList)) := by
  rw [parseMemorySize]
  rcases List.eq_nil_or_concat (trim size.toList) with
    empty | ⟨front, last, parts⟩
  · rw [empty]
    exact Reads.refused "Empty memory size"
  · rw [List.concat_eq_append] at parts
    have notEmpty : front ++ [last] ≠ [] := List.concat_ne_nil _ _
    rw [parts, readSize, List.getLast?_concat, List.dropLast_concat]
    dsimp only
    rw [if_neg notEmpty]
    apply (reads_splitLastChar front last).bind
    intro split
    exact reads_scaled split _ _

/-! ## What a size denotes -/

/-- Digits and at most one suffix behind them, and the size they stand for. -/
inductive Denotes : List Char → Nat → Prop
  | bytes {digits : List Char} :
      IsNumeral digits → Denotes digits (decimalValue digits)
  | scaled {digits : List Char} {suffix : Char} {power : Nat} :
      IsNumeral digits → suffixPower suffix = some power →
        Denotes (digits ++ [suffix]) (decimalValue digits * 1024 ^ power)

theorem suffixPower_isSome_iff {last : Char} :
    (suffixPower last).isSome = true ↔
      last ∈ ['K', 'M', 'G', 'T', 'k', 'm', 'g', 't'] := by
  rw [suffixPower]
  simp only [List.mem_cons, List.not_mem_nil, or_false]
  split_ifs with kilo mega giga tera
  · simp only [Option.isSome_some, true_iff]
    tauto
  · simp only [Option.isSome_some, true_iff]
    tauto
  · simp only [Option.isSome_some, true_iff]
    tauto
  · simp only [Option.isSome_some, true_iff]
    tauto
  · simp only [Option.isSome_none, Bool.false_eq_true, false_iff]
    tauto

theorem suffixPower_of_isDigit
    {last : Char} (digit : last.isDigit = true) : suffixPower last = none := by
  rw [suffixPower, if_neg, if_neg, if_neg, if_neg]
  all_goals
    rintro (rfl | rfl)
    · cases digit
    · cases digit

/-- What a size denotes is told by its last character. -/
theorem denotes_concat_iff {front : List Char} {last : Char} {value : Nat} :
    Denotes (front ++ [last]) value ↔
      (suffixPower last = none ∧ IsNumeral (front ++ [last]) ∧
          value = decimalValue (front ++ [last])) ∨
        ∃ power, suffixPower last = some power ∧ IsNumeral front ∧
          value = decimalValue front * 1024 ^ power := by
  constructor
  · intro denotes
    generalize whole : front ++ [last] = text at denotes
    cases denotes with
    | bytes numeral =>
        subst whole
        have digit : last.isDigit = true :=
          numeral.2 last (List.mem_append_right _ (List.mem_singleton_self _))
        exact Or.inl ⟨suffixPower_of_isDigit digit, numeral, rfl⟩
    | scaled numeral isSuffix =>
        rcases List.append_inj' whole rfl with ⟨rfl, same⟩
        cases same
        exact Or.inr ⟨_, isSuffix, numeral, rfl⟩
  · rintro (⟨-, numeral, rfl⟩ | ⟨power, isSuffix, numeral, rfl⟩)
    · exact Denotes.bytes numeral
    · exact Denotes.scaled numeral isSuffix

theorem not_denotes_nil {value : Nat} : ¬ Denotes [] value := by
  intro denotes
  generalize whole : ([] : List Char) = text at denotes
  cases denotes with
  | bytes numeral => exact numeral.1 whole.symm
  | scaled => exact absurd whole.symm (List.concat_ne_nil _ _)

/-- The check also lets a suffix through that stands alone. -/
theorem isMemorySize_iff {size : String} :
    isMemorySize size = true ↔
      (∃ value, Denotes size.toList value) ∨
        ∃ suffix, (suffixPower suffix).isSome = true ∧
          size.toList = [suffix] := by
  rw [isMemorySize]
  rcases List.eq_nil_or_concat size.toList with empty | ⟨front, last, parts⟩
  · rw [empty]
    simp [not_denotes_nil]
  rw [List.concat_eq_append] at parts
  rw [parts, List.getLast?_concat]
  dsimp only
  cases power : suffixPower last with
  | none =>
      have notSuffix : ¬ last ∈ ['K', 'M', 'G', 'T', 'k', 'm', 'g', 't'] := by
        rw [← suffixPower_isSome_iff, power]
        exact Bool.false_ne_true
      rw [if_neg notSuffix, List.all_eq_true]
      constructor
      · intro digits
        exact Or.inl ⟨_, Denotes.bytes ⟨List.concat_ne_nil _ _, digits⟩⟩
      · rintro (⟨value, denotes⟩ | ⟨suffix, isSuffix, alone⟩)
        · rcases denotes_concat_iff.1 denotes with
            ⟨-, numeral, -⟩ | ⟨exponent, isSuffix, -⟩
          · exact numeral.2
          · cases power.symm.trans isSuffix
        · have parted : front ++ [last] = [] ++ [suffix] := alone
          rcases List.append_inj' parted rfl with ⟨-, same⟩
          cases same
          rw [power] at isSuffix
          cases isSuffix
  | some exponent =>
      have isSome : (suffixPower last).isSome = true := by
        rw [power]
        rfl
      rw [if_pos (suffixPower_isSome_iff.1 isSome), List.dropLast_concat,
        List.all_eq_true]
      constructor
      · intro digits
        by_cases alone : front = []
        · subst alone
          exact Or.inr ⟨last, isSome, rfl⟩
        · exact Or.inl ⟨_, Denotes.scaled ⟨alone, digits⟩ power⟩
      · rintro (⟨value, denotes⟩ | ⟨suffix, -, alone⟩)
        · rcases denotes_concat_iff.1 denotes with
            ⟨noSuffix, -⟩ | ⟨_, -, numeral, -⟩
          · cases power.symm.trans noSuffix
          · exact numeral.2
        · have parted : front ++ [last] = [] ++ [suffix] := alone
          rcases List.append_inj' parted rfl with ⟨rfl, -⟩
          exact List.forall_mem_nil _

/-! ## Sizes are not trimmed -/

theorem isWhiteSpace_of_suffix
    {char : Char} (suffix : (suffixPower char).isSome = true) :
    isWhiteSpace char = false := by
  have white :
      ['K', 'M', 'G', 'T', 'k', 'm', 'g', 't'].all
        (fun char => !isWhiteSpace char) = true := by
    decide
  have solid :=
    List.all_eq_true.1 white char (suffixPower_isSome_iff.1 suffix)
  simpa using solid

theorem Denotes.trim_eq
    {text : List Char} {value : Nat} (denotes : Denotes text value) :
    trim text = text := by
  apply trim_eq_self
  cases denotes with
  | bytes numeral =>
      intro char member
      exact isWhiteSpace_of_isDigit (numeral.2 char member)
  | scaled numeral isSuffix =>
      intro char member
      rcases List.mem_append.1 member with digit | last
      · exact isWhiteSpace_of_isDigit (numeral.2 char digit)
      · cases List.mem_singleton.1 last
        exact isWhiteSpace_of_suffix (Option.isSome_of_eq_some isSuffix)

/-- A size is read as what it denotes, if that fits in 64 bits. -/
theorem Denotes.readSize_eq
    {text : List Char} {value : Nat} (denotes : Denotes text value)
    (fits : value < 2 ^ 64) : readSize text = some value := by
  rcases List.eq_nil_or_concat text with rfl | ⟨front, last, rfl⟩
  · exact absurd denotes not_denotes_nil
  rw [List.concat_eq_append] at denotes ⊢
  rw [readSize, List.getLast?_concat, List.dropLast_concat]
  dsimp only
  rcases denotes_concat_iff.1 denotes with
    ⟨noSuffix, numeral, rfl⟩ | ⟨power, isSuffix, numeral, rfl⟩
  · have digit : last.isDigit = true :=
      numeral.2 last (List.mem_append_right _ (List.mem_singleton_self _))
    have split : readSplit front last = some (front ++ [last], 1) := by
      rw [readSplit, noSuffix]
      exact if_pos digit
    have small : decimalValue (front ++ [last]) * 1 < 2 ^ 64 := by
      rwa [Nat.mul_one]
    rw [split, Option.bind_some, readScaled, parseU64_of_isNumeral numeral,
      if_pos fits]
    dsimp only
    rw [if_pos small, Nat.mul_one]
  · have split : readSplit front last = some (front, 1024 ^ power) := by
      rw [readSplit, isSuffix]
    have small : decimalValue front < 2 ^ 64 :=
      (Nat.le_mul_of_pos_right _ (Nat.pow_pos (by decide))).trans_lt fits
    rw [split, Option.bind_some, readScaled, parseU64_of_isNumeral numeral,
      if_pos small]
    dsimp only
    rw [if_pos fits]

/-! ## The readers agree -/

/-- What the three functions owe each other on one size. -/
structure ReadersAgree (size : String) : Prop where
  agree :
    (∃ value,
        parseSizeToBytes size = .ok value ∧ parseMemorySize size = .ok value) ∨
      (∃ problem, parseSizeToBytes size = refuse problem) ∧
        ∃ problem, parseMemorySize size = refuse problem
  checked :
    validateMemory size = .ok () ↔ ∃ value, Denotes size.toList value
  read :
    validateMemory size = .ok () →
      ∃ value, Denotes size.toList value ∧
        (parseSizeToBytes size = .ok value ∧
            parseMemorySize size = .ok value ∨
          2 ^ 64 ≤ value)

theorem read_of_denotes
    {size : String} {value : Nat} (denotes : Denotes size.toList value) :
    parseSizeToBytes size = .ok value ∧ parseMemorySize size = .ok value ∨
      2 ^ 64 ≤ value := by
  by_cases fits : value < 2 ^ 64
  · have first := reads_parseSizeToBytes size
    have second := reads_parseMemorySize size
    rw [denotes.trim_eq, denotes.readSize_eq fits] at first second
    exact Or.inl ⟨first, second⟩
  · exact Or.inr (not_lt.1 fits)

/-- A suffix alone is no size, and yet it is let through. -/
theorem not_denotes_suffix
    {suffix : Char} (isSuffix : (suffixPower suffix).isSome = true)
    {value : Nat} : ¬ Denotes [suffix] value := by
  intro denotes
  rcases denotes_concat_iff.1 (show Denotes ([] ++ [suffix]) value from denotes)
    with ⟨noSuffix, -⟩ | ⟨power, -, numeral, -⟩
  · rw [noSuffix] at isSuffix
    cases isSuffix
  · exact numeral.1 rfl

/-- The readers agree on every text but a suffix that stands alone. -/
theorem readersAgree_iff (size : String) :
    ReadersAgree size ↔
      ∀ suffix ∈ "KMGTkmgt".toList, size.toList ≠ [suffix] := by
  constructor
  · intro agrees suffix member alone
    have isSuffix : (suffixPower suffix).isSome = true :=
      suffixPower_isSome_iff.2 member
    have accepted : validateMemory size = .ok () :=
      validateMemory_eq_ok_iff.2
        (isMemorySize_iff.2 (Or.inr ⟨suffix, isSuffix, alone⟩))
    rcases agrees.checked.1 accepted with ⟨value, denotes⟩
    rw [alone] at denotes
    exact not_denotes_suffix isSuffix denotes
  · intro notAlone
    have checked :
        validateMemory size = .ok () ↔ ∃ value, Denotes size.toList value := by
      rw [validateMemory_eq_ok_iff, isMemorySize_iff]
      apply or_iff_left
      rintro ⟨suffix, isSuffix, alone⟩
      exact notAlone suffix (suffixPower_isSome_iff.1 isSuffix) alone
    constructor
    · exact (reads_parseSizeToBytes size).agree (reads_parseMemorySize size)
    · exact checked
    · intro accepted
      rcases checked.1 accepted with ⟨value, denotes⟩
      exact ⟨value, denotes, read_of_denotes denotes⟩

/-- The memory size `G` is accepted, and no reader reads it. -/
theorem not_readersAgree_bareSuffix :
    validateMemory "G" = .ok () ∧
      (∃ problem, parseSizeToBytes "G" = refuse problem) ∧
        (∃ problem, parseMemorySize "G" = refuse problem) ∧
          ¬ ReadersAgree "G" := by
  have unread : readSize (trim "G".toList) = none := by decide
  have first := reads_parseSizeToBytes "G"
  have second := reads_parseMemorySize "G"
  rw [unread] at first second
  refine ⟨by decide, first, second, ?_⟩
  rw [readersAgree_iff]
  intro notAlone
  exact notAlone 'G' (by decide) (by decide)

end Confos.Image.SizeReaders
