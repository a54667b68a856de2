import Confos.Library.ByteStrings
import Confos.Library.Numerals
import Confos.Library.Text

/-!
# Text as Python reads it

The parts of Python's standard library that the guest's scripts read files
with: text mode, `str.split`, `struct.pack` and `base64.b64decode`.
-/

namespace Confos.Library.PythonText

open Confos.Library.ByteStrings
open Confos.Library.Numerals
open Confos.Library.Text

/-! ## Text mode -/

/-- Text mode hands out every line end as a single newline. -/
def universalNewlines : List Char → List Char
  | '\r' :: '\n' :: text => '\n' :: universalNewlines text
  | '\r' :: text => '\n' :: universalNewlines text
  | char :: text => char :: universalNewlines text
  | [] => []

/-- The ends of lines that `str.splitlines` knows. -/
def isLineBreak (char : Char) : Bool :=
  let code := char.toNat
  (0x0A ≤ code && code ≤ 0x0D) || (0x1C ≤ code && code ≤ 0x1E) ||
    code = 0x85 || code = 0x2028 || code = 0x2029

/-- `str.splitlines`: a carriage return and a newline are one end, and what is
behind the last end is a line only if it is not empty. -/
def splitlines (text : List Char) : List (List Char) :=
  let pieces := (universalNewlines text).splitOnP isLineBreak
  if pieces.getLast? = some [] then pieces.dropLast else pieces

/-- Line ends that separate words do so as text mode hands them out. -/
theorem wordsBy_append_universalNewlines
    {separates : Char → Bool} (newline : separates '\n' = true)
    (carriageReturn : separates '\r' = true) (front text : List Char) :
    wordsBy separates (front ++ universalNewlines text) =
      wordsBy separates (front ++ text) := by
  induction text using universalNewlines.induct generalizing front with
  | case1 text induction =>
      have later := induction []
      rw [List.nil_append, List.nil_append] at later
      rw [universalNewlines, wordsBy_append_cons _ _ newline,
        wordsBy_append_cons _ _ carriageReturn, later]
      exact
        congrArg _
          (@wordsBy_append_of_separators separates ['\n'] text
            (List.forall_mem_singleton.2 newline)).symm
  | case2 text single induction =>
      have later := induction []
      rw [List.nil_append, List.nil_append] at later
      rw [universalNewlines, wordsBy_append_cons _ _ newline,
        wordsBy_append_cons _ _ carriageReturn, later]
      exact single
  | case3 char text pair single induction =>
      have later := induction (front ++ [char])
      rw [List.append_assoc, List.append_assoc, List.singleton_append,
        List.singleton_append] at later
      rw [universalNewlines, later]
      · exact pair
      · exact single
  | case4 => rfl

theorem wordsBy_universalNewlines
    {separates : Char → Bool} (newline : separates '\n' = true)
    (carriageReturn : separates '\r' = true) (text : List Char) :
    wordsBy separates (universalNewlines text) = wordsBy separates text :=
  wordsBy_append_universalNewlines newline carriageReturn [] text

/-- The lines that are not empty are what stands between the breaks. -/
theorem filter_splitlines (text : List Char) :
    (splitlines text).filter (· ≠ []) = wordsBy isLineBreak text := by
  rw [← wordsBy_universalNewlines rfl rfl, splitlines, wordsBy]
  split
  · rename_i ended
    rcases List.getLast?_eq_some_iff.1 ended with ⟨front, pieces⟩
    rw [pieces, List.dropLast_concat, List.filter_append]
    simp
  · rfl

/-- How many bytes a text file is decoded at a time. -/
def chunkSize : Nat := 8192

/--
How many bytes tell the first line: behind a carriage return, one more, which
may be the other half of the line end.
-/
def firstLineBytes : Bytes → Nat
  | [] => 0
  | byte :: bytes =>
      if byte = 10 then
        1
      else if byte = 13 then
        2
      else
        firstLineBytes bytes + 1

/-- The text of bytes that are all ASCII. -/
def decodeAscii (bytes : Bytes) : Option (List Char) :=
  if bytes.all (· < 128) then
    some (bytes.map fun byte => Char.ofNat byte.toNat)
  else
    none

/-- `readline` of an ASCII file: all the chunks it decodes must be ASCII. -/
def readlineAscii (content : Bytes) : Option (List Char) :=
  (decodeAscii
      (content.take (roundUp chunkSize (firstLineBytes content)))).map
    fun text => (universalNewlines text).takeWhile (· ≠ '\n')

/-! ## Words -/

/-- `str.isspace`. -/
def isSpace (char : Char) : Bool :=
  isWhiteSpace char || (0x1C ≤ char.toNat && char.toNat ≤ 0x1F)

/-- `str.split` without a separator. -/
def split (text : List Char) : List (List Char) :=
  (text.splitOnP isSpace).filter (· ≠ [])

/-- No word holds a space. -/
theorem isSpace_eq_false_of_mem_split
    {text word : List Char} {char : Char}
    (isWord : word ∈ split text) (inside : char ∈ word) :
    isSpace char = false :=
  eq_false_of_mem_splitOnP (List.mem_filter.1 isWord).1 inside

/-- `str.strip` without characters. -/
def strip (text : List Char) : List Char :=
  ((text.dropWhile isSpace).reverse.dropWhile isSpace).reverse

/-! ## Numbers -/

def withoutSign : List Char → Bool × List Char
  | '-' :: text => (true, text)
  | '+' :: text => (false, text)
  | text => (false, text)

/-- The limit of the interpreter on a number's digits; zero is none. -/
def FitsLimit (maxDigits digits : Nat) : Prop :=
  maxDigits = 0 ∨ digits ≤ maxDigits

instance (maxDigits digits : Nat) : Decidable (FitsLimit maxDigits digits) :=
  inferInstanceAs (Decidable (_ ∨ _))

/-- `int` of an ASCII text. -/
def int (maxDigits : Nat) (text : List Char) : Option Int :=
  let signed := withoutSign (strip text)
  let groups := signed.2.splitOn '_'
  let value : Int := decimalValue groups.flatten
  if groups.all (fun group => IsNumeral group) ∧
      FitsLimit maxDigits groups.flatten.length then
    some (if signed.1 then -value else value)
  else
    none

theorem isSpace_of_isDigit {char : Char} (digit : char.isDigit = true) :
    isSpace char = false := by
  rw [isSpace, isWhiteSpace_of_isDigit digit]
  rw [isDigit_iff] at digit
  simp only [Bool.false_or, Bool.and_eq_false_iff, decide_eq_false_iff_not]
  omega

theorem strip_eq_self {text : List Char}
    (solid : ∀ char ∈ text, isSpace char = false) : strip text = text := by
  rw [strip, dropWhile_eq_self solid,
    dropWhile_eq_self (by simpa using solid), List.reverse_reverse]

theorem withoutSign_of_isNumeral
    {digits : List Char} (numeral : IsNumeral digits) :
    withoutSign digits = (false, digits) := by
  rw [withoutSign.eq_def]
  split
  · next rest =>
      have isDigit := numeral.2 '-' List.mem_cons_self
      cases isDigit
  · next rest =>
      have isDigit := numeral.2 '+' List.mem_cons_self
      cases isDigit
  · rfl

/-- Digits are read as the number they stand for. -/
theorem int_of_isNumeral
    {maxDigits : Nat} {digits : List Char} (numeral : IsNumeral digits)
    (short : FitsLimit maxDigits digits.length) :
    int maxDigits digits = some (decimalValue digits : Int) := by
  have solid : strip digits = digits :=
    strip_eq_self fun char member => isSpace_of_isDigit (numeral.2 char member)
  have oneGroup : digits.splitOn '_' = [digits] := by
    apply List.splitOn_eq_singleton
    intro member
    have isDigit := numeral.2 '_' member
    cases isDigit
  have together : [digits].flatten = digits := List.append_nil digits
  rw [int, solid, withoutSign_of_isNumeral numeral]
  dsimp only
  rw [oneGroup, together, List.all_cons, List.all_nil, Bool.and_true,
    if_pos ⟨decide_eq_true numeral, short⟩]
  rfl

/-! ## UTF-8 -/

/-- The rest of a character of several bytes, and the bytes that are taken. -/
def continued : Nat → UInt8 → UInt8 → Nat → Nat → Bytes → Option Char × Nat
  | 0, _, _, value, taken, _ => (some (Char.ofNat value), taken)
  | _ + 1, _, _, _, taken, [] => (none, taken)
  | count + 1, low, high, value, taken, byte :: bytes =>
      if low ≤ byte ∧ byte ≤ high then
        continued count 0x80 0xBF (value * 64 + (byte.toNat - 0x80))
          (taken + 1) bytes
      else
        (none, taken)

/-- The first character, or nothing where the bytes are not UTF-8. -/
def firstChar : Bytes → Option Char × Nat
  | [] => (none, 0)
  | lead :: bytes =>
      if lead < 0x80 then
        (some (Char.ofNat lead.toNat), 1)
      else if lead < 0xC2 then
        (none, 1)
      else if lead < 0xE0 then
        continued 1 0x80 0xBF (lead.toNat - 0xC0) 1 bytes
      else if lead < 0xF0 then
        continued 2 (if lead = 0xE0 then 0xA0 else 0x80)
          (if lead = 0xED then 0x9F else 0xBF) (lead.toNat - 0xE0) 1 bytes
      else if lead < 0xF5 then
        continued 3 (if lead = 0xF0 then 0x90 else 0x80)
          (if lead = 0xF4 then 0x8F else 0xBF) (lead.toNat - 0xF0) 1 bytes
      else
        (none, 1)

/-- The characters and the places without one, in so many turns. -/
def decodeTurns : Nat → Bytes → List (Option Char)
  | 0, _ => []
  | _, [] => []
  | turns + 1, bytes =>
      let (char, taken) := firstChar bytes
      char :: decodeTurns turns (bytes.drop taken)

/-- `bytes.decode` -/
def decode (bytes : Bytes) : Option (List Char) :=
  (decodeTurns bytes.length bytes).mapM id

/-- ASCII text is decoded to itself. -/
theorem decode_utf8Bytes_of_ascii
    {text : List Char} (ascii : ∀ char ∈ text, char.toNat < 128) :
    decode (utf8Bytes (String.ofList text)) = some text := by
  have bytes :
      utf8Bytes (String.ofList text) =
        text.map fun char => UInt8.ofNat char.toNat := by
    rw [utf8Bytes_ofList]
    induction text with
    | nil => rfl
    | cons char text induction =>
        rcases List.forall_mem_cons.1 ascii with ⟨small, others⟩
        rw [List.flatMap_cons, induction others, utf8EncodeChar_of_lt small]
        rfl
  rw [decode, bytes, List.length_map]
  clear bytes
  induction text with
  | nil => rfl
  | cons char text induction =>
      rcases List.forall_mem_cons.1 ascii with ⟨small, others⟩
      have code : (UInt8.ofNat char.toNat).toNat = char.toNat :=
        Nat.mod_eq_of_lt (by omega)
      have lead : UInt8.ofNat char.toNat < 0x80 :=
        UInt8.lt_iff_toNat_lt.2 (code.symm ▸ small)
      have first (bytes : Bytes) :
          firstChar (UInt8.ofNat char.toNat :: bytes) = (some char, 1) := by
        rw [firstChar, if_pos lead, code, Char.ofNat_toNat]
      have turn (turns : Nat) (bytes : Bytes) :
          decodeTurns (turns + 1) (UInt8.ofNat char.toNat :: bytes) =
            some char :: decodeTurns turns bytes := by
        rw [decodeTurns, first]
        · rfl
        · exact List.cons_ne_nil _ _
      rw [List.map_cons, List.length_cons, turn, List.mapM_cons,
        induction others]
      rfl

/-- `bytes.decode` with `errors="replace"` -/
def decodeReplace (bytes : Bytes) : List Char :=
  (decodeTurns bytes.length bytes).map (·.getD (Char.ofNat 0xFFFD))

/-- A carriage return, with a newline or without, ends a line of bytes. -/
def universalNewlineBytes : Bytes → Bytes
  | 13 :: 10 :: bytes => 10 :: universalNewlineBytes bytes
  | 13 :: bytes => 10 :: universalNewlineBytes bytes
  | byte :: bytes => byte :: universalNewlineBytes bytes
  | [] => []

/-- `bytes.splitlines` -/
def bytesSplitlines (bytes : Bytes) : List Bytes :=
  let pieces := (universalNewlineBytes bytes).splitOnP (· = 10)
  if pieces.getLast? = some [] then pieces.dropLast else pieces

/-! ## Packed numbers -/

/-- `struct.pack` of a big-endian unsigned 32-bit number. -/
def packBigEndian32 (value : Nat) : Option Bytes :=
  if value < 2 ^ 32 then some (leBytes 4 value).reverse else none

/-! ## Base64 -/

/-- The number a letter of the standard alphabet stands for. -/
def base64Value (char : Char) : Option Nat :=
  if 'A' ≤ char ∧ char ≤ 'Z' then
    some (char.toNat - 'A'.toNat)
  else if 'a' ≤ char ∧ char ≤ 'z' then
    some (char.toNat - 'a'.toNat + 26)
  else if '0' ≤ char ∧ char ≤ '9' then
    some (char.toNat - '0'.toNat + 52)
  else if char = '+' then
    some 62
  else if char = '/' then
    some 63
  else
    none

/-- The three bytes of four letters. -/
def base64Group (first second third fourth : Nat) : Bytes :=
  let bits := ((first * 64 + second) * 64 + third) * 64 + fourth
  [UInt8.ofNat (bits / 65536), UInt8.ofNat (bits / 256), UInt8.ofNat bits]

/-- `base64.b64decode` with `validate`. -/
def b64decode : List Char → Option Bytes
  | [] => some []
  | [first, second, '=', '='] => do
      let bytes := base64Group (← base64Value first) (← base64Value second) 0 0
      return bytes.take 1
  | [first, second, third, '='] => do
      let bytes :=
        base64Group (← base64Value first) (← base64Value second)
          (← base64Value third) 0
      return bytes.take 2
  | first :: second :: third :: fourth :: text => do
      let bytes :=
        base64Group (← base64Value first) (← base64Value second)
          (← base64Value third) (← base64Value fourth)
      return bytes ++ (← b64decode text)
  | _ => none

example :
    b64decode "TWFueQ==".toList = some (utf8Bytes "Many") := by
  decide

end Confos.Library.PythonText
