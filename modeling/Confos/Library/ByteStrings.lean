import Mathlib.Data.List.Basic
import Mathlib.Data.Nat.Basic
import Mathlib.Data.Set.Function
import Mathlib.Tactic.Ring

/-!
# Byte strings

Byte strings are lists of `UInt8`.  This module holds the little-endian
encoding of fixed-width numbers, blocks of a fixed length, zero padding, and
the cut of a byte string into pages of a fixed size, each with the law that
recovers what was encoded.
-/

namespace Confos.Library.ByteStrings

/-- A byte string. -/
abbrev Bytes := List UInt8

/-! ## Little-endian numbers -/

/-- The `width` little-endian bytes of `value`; higher bytes are dropped. -/
def leBytes : Nat → Nat → Bytes
  | 0, _ => []
  | width + 1, value =>
      UInt8.ofNat (value % 256) :: leBytes width (value / 256)

/-- The number whose little-endian bytes are given. -/
def ofLeBytes : Bytes → Nat
  | [] => 0
  | byte :: rest => byte.toNat + 256 * ofLeBytes rest

@[simp]
theorem length_leBytes (width value : Nat) :
    (leBytes width value).length = width := by
  induction width generalizing value with
  | zero => rfl
  | succ width induction => simp [leBytes, induction]

theorem ofLeBytes_leBytes (width value : Nat) :
    ofLeBytes (leBytes width value) = value % 256 ^ width := by
  induction width generalizing value with
  | zero => simp [leBytes, ofLeBytes, Nat.mod_one]
  | succ width induction =>
      have small : value % 256 % 2 ^ 8 = value % 256 :=
        Nat.mod_eq_of_lt (Nat.mod_lt value (by decide))
      rw [leBytes, ofLeBytes, induction, UInt8.toNat_ofNat', small,
        pow_succ', Nat.mod_mul]

/-- A number that fits its width is recovered from its bytes. -/
theorem ofLeBytes_leBytes_of_lt
    {width value : Nat}
    (fits : value < 256 ^ width) :
    ofLeBytes (leBytes width value) = value := by
  rw [ofLeBytes_leBytes, Nat.mod_eq_of_lt fits]

theorem leBytes_injOn
    {width left right : Nat}
    (leftFits : left < 256 ^ width)
    (rightFits : right < 256 ^ width)
    (equal : leBytes width left = leBytes width right) :
    left = right := by
  have decoded := congrArg ofLeBytes equal
  rwa [ofLeBytes_leBytes_of_lt leftFits,
    ofLeBytes_leBytes_of_lt rightFits] at decoded

theorem ofLeBytes_lt (bytes : Bytes) :
    ofLeBytes bytes < 256 ^ bytes.length := by
  induction bytes with
  | nil => simp [ofLeBytes]
  | cons byte rest induction =>
      have byteBound : byte.toNat < 256 := byte.toNat_lt
      rw [ofLeBytes, List.length_cons, pow_succ]
      omega

/-- Bytes are the little-endian form of the number they hold. -/
theorem leBytes_ofLeBytes (bytes : Bytes) :
    leBytes bytes.length (ofLeBytes bytes) = bytes := by
  induction bytes with
  | nil => rfl
  | cons byte rest induction =>
      have low : (byte.toNat + 256 * ofLeBytes rest) % 256 = byte.toNat := by
        rw [Nat.add_mul_mod_self_left]
        exact Nat.mod_eq_of_lt byte.toNat_lt
      have high :
          (byte.toNat + 256 * ofLeBytes rest) / 256 = ofLeBytes rest := by
        rw [Nat.add_mul_div_left _ _ (by decide),
          Nat.div_eq_of_lt byte.toNat_lt, Nat.zero_add]
      rw [ofLeBytes, List.length_cons, leBytes, low, high, induction,
        UInt8.ofNat_toNat]

/-! ## Text -/

/-- A number in lower-case hexadecimal, zero-filled to `width` digits. -/
def lowerHex (width value : Nat) : String :=
  let digits := Nat.toDigits 16 value
  String.ofList (List.replicate (width - digits.length) '0' ++ digits)

/-- The two lower-case hexadecimal digits of a byte. -/
def hexDigits (byte : UInt8) : List Char :=
  [Nat.digitChar (byte.toNat / 16), Nat.digitChar (byte.toNat % 16)]

/-- A byte string in lower-case hexadecimal. -/
def hexEncode (bytes : Bytes) : String :=
  String.ofList (bytes.flatMap hexDigits)

theorem digitChar_injOn :
    ∀ left < 16, ∀ right < 16,
      Nat.digitChar left = Nat.digitChar right → left = right := by
  decide

theorem hexDigits_injective {left right : UInt8}
    (equal : hexDigits left = hexDigits right) : left = right := by
  have leftSmall : left.toNat < 256 := left.toNat_lt
  have rightSmall : right.toNat < 256 := right.toNat_lt
  simp only [hexDigits, List.cons.injEq, and_true] at equal
  have high :=
    digitChar_injOn _ (Nat.div_lt_of_lt_mul leftSmall) _
      (Nat.div_lt_of_lt_mul rightSmall) equal.1
  have low :=
    digitChar_injOn _ (Nat.mod_lt _ (by decide)) _
      (Nat.mod_lt _ (by decide)) equal.2
  apply UInt8.toNat_inj.1
  calc left.toNat
      = 16 * (left.toNat / 16) + left.toNat % 16 :=
        (Nat.div_add_mod _ _).symm
    _ = 16 * (right.toNat / 16) + right.toNat % 16 := by rw [high, low]
    _ = right.toNat := Nat.div_add_mod _ _

/-- Hexadecimal text tells its bytes. -/
theorem hexEncode_injective : Function.Injective hexEncode := by
  intro left right equal
  have digits := String.ofList_injective equal
  clear equal
  induction left generalizing right with
  | nil =>
      cases right with
      | nil => rfl
      | cons byte right => cases digits
  | cons byte left induction =>
      cases right with
      | nil => cases digits
      | cons other right =>
          rw [List.flatMap_cons, List.flatMap_cons] at digits
          have parts := List.append_inj digits rfl
          rw [hexDigits_injective parts.1, induction parts.2]

theorem length_flatMap_hexDigits (bytes : Bytes) :
    (bytes.flatMap hexDigits).length = 2 * bytes.length := by
  rw [List.length_flatMap]
  induction bytes with
  | nil => rfl
  | cons byte bytes induction =>
      rw [List.map_cons, List.sum_cons, induction, List.length_cons]
      change 2 + _ = _
      omega

theorem length_hexEncode (bytes : Bytes) :
    (hexEncode bytes).length = 2 * bytes.length := by
  rw [hexEncode, String.length_ofList, length_flatMap_hexDigits]

theorem toLower_digitChar :
    ∀ digit < 16, (Nat.digitChar digit).toLower = Nat.digitChar digit := by
  decide

/-- Hexadecimal text is in lower case already. -/
theorem map_toLower_hexEncode (bytes : Bytes) :
    (hexEncode bytes).toList.map Char.toLower = (hexEncode bytes).toList := by
  rw [hexEncode, String.toList_ofList]
  induction bytes with
  | nil => rfl
  | cons byte bytes induction =>
      have high := Nat.div_lt_of_lt_mul (show byte.toNat < 16 * 16 from
        byte.toNat_lt)
      have low := Nat.mod_lt byte.toNat (show 0 < 16 by decide)
      rw [List.flatMap_cons, List.map_append, induction, hexDigits,
        List.map_cons, List.map_cons, toLower_digitChar _ high,
        toLower_digitChar _ low, List.map_nil]

def base64Alphabet : List Char :=
  "ABCDEFGHIJKLMNOPQRSTUVWXYZabcdefghijklmnopqrstuvwxyz0123456789+/".toList

def base64Letter (value : Nat) : Char :=
  base64Alphabet.getD value 'A'

/-- The four letters of three bytes. -/
def base64Letters (first second third : UInt8) : List Char :=
  let bits := (first.toNat * 256 + second.toNat) * 256 + third.toNat
  [bits / 262144, bits / 4096 % 64, bits / 64 % 64, bits % 64].map base64Letter

/-- A byte string in the standard alphabet, filled up with `=`. -/
def base64Encode : Bytes → List Char
  | [] => []
  | [first] => (base64Letters first 0 0).take 2 ++ ['=', '=']
  | [first, second] => (base64Letters first second 0).take 3 ++ ['=']
  | first :: second :: third :: bytes =>
      base64Letters first second third ++ base64Encode bytes

theorem base64Letter_mem (value : Nat) :
    base64Letter value ∈ base64Alphabet := by
  rw [base64Letter, List.getD_eq_getElem?_getD]
  cases found : base64Alphabet[value]? with
  | none => decide
  | some letter => exact List.mem_of_getElem? found

theorem mem_base64Letters
    {first second third : UInt8} {char : Char}
    (member : char ∈ base64Letters first second third) :
    char ∈ base64Alphabet := by
  rcases List.mem_map.1 member with ⟨value, -, rfl⟩
  exact base64Letter_mem value

/-- Base64 is made of the letters of its alphabet. -/
theorem mem_base64Encode
    {bytes : Bytes} {char : Char} (member : char ∈ base64Encode bytes) :
    char ∈ base64Alphabet ∨ char = '=' := by
  induction bytes using base64Encode.induct with
  | case1 => cases member
  | case2 first =>
      rcases List.mem_append.1 member with letters | filled
      · exact Or.inl (mem_base64Letters (List.mem_of_mem_take letters))
      · exact Or.inr (by simpa using filled)
  | case3 first second =>
      rcases List.mem_append.1 member with letters | filled
      · exact Or.inl (mem_base64Letters (List.mem_of_mem_take letters))
      · exact Or.inr (by simpa using filled)
  | case4 first second third bytes induction =>
      rcases List.mem_append.1 member with letters | rest
      · exact Or.inl (mem_base64Letters letters)
      · exact induction rest

def utf8Bytes (text : String) : Bytes :=
  text.toUTF8.data.toList

/-- The text of a byte string that is valid UTF-8. -/
def utf8Text? (bytes : Bytes) : Option String :=
  String.fromUTF8? ⟨bytes.toArray⟩

/-- The bytes of a text are valid UTF-8. -/
theorem utf8Text?_utf8Bytes (text : String) :
    utf8Text? (utf8Bytes text) = some text := by
  rw [utf8Text?, utf8Bytes, Array.toArray_toList, String.fromUTF8?]
  split
  · rfl
  · next invalid => exact absurd text.isValidUTF8 invalid

theorem utf8Bytes_of_utf8Text?_eq_some
    {bytes : Bytes} {text : String} (valid : utf8Text? bytes = some text) :
    utf8Bytes text = bytes := by
  rw [utf8Text?, String.fromUTF8?] at valid
  split at valid
  · cases valid
    rfl
  · cases valid

theorem utf8Bytes_ofList (text : List Char) :
    utf8Bytes (String.ofList text) = text.flatMap String.utf8EncodeChar := by
  change (String.ofList text).toByteArray.data.toList = _
  rw [String.toByteArray_ofList, List.utf8Encode,
    List.toList_data_toByteArray]

theorem utf8EncodeChar_of_lt {char : Char} (small : char.toNat < 128) :
    String.utf8EncodeChar char = [UInt8.ofNat char.toNat] := by
  rw [String.utf8EncodeChar]
  exact if_pos (Nat.le_of_lt_succ small)

theorem utf8Bytes_append (front back : String) :
    utf8Bytes (front ++ back) = utf8Bytes front ++ utf8Bytes back := by
  change (front ++ back).toByteArray.data.toList = _
  rw [String.toByteArray_append, ByteArray.data_append, Array.toList_append]
  rfl

theorem length_utf8Bytes (text : String) :
    (utf8Bytes text).length = text.utf8ByteSize := by
  change text.toByteArray.data.toList.length = _
  rw [Array.length_toList]
  rfl

/-! ## Blocks of a fixed length -/

/-- A byte string of exactly `size` bytes. -/
@[ext]
structure Block (size : Nat) where
  bytes : Bytes
  length_eq : bytes.length = size
deriving DecidableEq

attribute [simp] Block.length_eq

/-- The block of zero bytes. -/
def Block.zero (size : Nat) : Block size :=
  ⟨List.replicate size 0, by simp⟩

/-- The hash of a byte string as text. -/
def hexHash {size : Nat} (hash : Bytes → Block size) (bytes : Bytes) : String :=
  hexEncode (hash bytes).bytes

theorem hexHash_ne_empty
    {size : Nat} (positive : 0 < size) (hash : Bytes → Block size)
    (bytes : Bytes) : hexHash hash bytes ≠ "" := by
  intro empty
  have noBytes : (hash bytes).bytes = [] :=
    hexEncode_injective (show hexHash hash bytes = hexEncode [] from empty)
  have length := (hash bytes).length_eq
  rw [noBytes] at length
  exact positive.ne length

theorem length_hexHash
    {size : Nat} (hash : Bytes → Block size) (bytes : Bytes) :
    (hexHash hash bytes).length = 2 * size := by
  rw [hexHash, length_hexEncode, Block.length_eq]

/-- Equal texts are hashes of equal bytes, unless the hash collides. -/
theorem eq_of_hexHash_eq
    {size : Nat} {hash : Bytes → Block size} {known : Set Bytes}
    (noCollision : Set.InjOn hash known)
    {left right : Bytes} (leftKnown : left ∈ known)
    (rightKnown : right ∈ known)
    (equal : hexHash hash left = hexHash hash right) :
    left = right :=
  noCollision leftKnown rightKnown (Block.ext (hexEncode_injective equal))

/-- Two blocks in front of equal messages are equal. -/
theorem Block.append_inj
    {size : Nat}
    {left right : Block size}
    {leftRest rightRest : Bytes}
    (equal : left.bytes ++ leftRest = right.bytes ++ rightRest) :
    left = right ∧ leftRest = rightRest := by
  have parts :=
    List.append_inj equal (by simp)
  exact ⟨Block.ext parts.1, parts.2⟩

/-! ## Zero padding -/

/-- The first `size` bytes of `data`, filled up with zeros. -/
def padTo (size : Nat) (data : Bytes) : Bytes :=
  data.take size ++ List.replicate (size - data.length) 0

@[simp]
theorem length_padTo (size : Nat) (data : Bytes) :
    (padTo size data).length = size := by
  simp [padTo]
  omega

@[simp]
theorem padTo_nil (size : Nat) :
    padTo size [] = List.replicate size 0 := by
  simp [padTo]

theorem padTo_of_length_le
    {size : Nat} {data : Bytes}
    (fits : data.length ≤ size) :
    padTo size data = data ++ List.replicate (size - data.length) 0 := by
  rw [padTo, List.take_of_length_le fits]

/-- The bytes at offsets `start` to `start + size`. -/
def slice (data : Bytes) (start size : Nat) : Bytes :=
  (data.drop start).take size

theorem length_slice (data : Bytes) (start size : Nat) :
    (slice data start size).length = min size (data.length - start) := by
  simp [slice]

theorem length_slice_of_le
    {data : Bytes} {start size : Nat}
    (fits : start + size ≤ data.length) :
    (slice data start size).length = size := by
  rw [length_slice]
  omega

theorem ofLeBytes_slice_lt (data : Bytes) (start size : Nat) :
    ofLeBytes (slice data start size) < 256 ^ size := by
  have short : (slice data start size).length ≤ size := by
    rw [length_slice]
    exact min_le_left _ _
  exact lt_of_lt_of_le (ofLeBytes_lt _) (Nat.pow_le_pow_right (by decide) short)

/-- The bytes of a slice are the form of the number they hold. -/
theorem leBytes_ofLeBytes_slice
    {data : Bytes} {start size : Nat}
    (fits : start + size ≤ data.length) :
    leBytes size (ofLeBytes (slice data start size)) =
      slice data start size := by
  have encoded := leBytes_ofLeBytes (slice data start size)
  rwa [length_slice_of_le fits] at encoded

/-- A slice that ends inside a cut of the data is a slice of the data. -/
theorem slice_take
    {data : Bytes} {kept start size : Nat}
    (inside : start + size ≤ kept) :
    slice (data.take kept) start size = slice data start size := by
  rw [slice, slice, List.drop_take, List.take_take,
    Nat.min_eq_left (by omega)]

/-- A slice of a longer string, or a longer slice, starts with the shorter one. -/
theorem slice_mono
    {shorter longer : Bytes} {size larger : Nat}
    (isPrefix : shorter <+: longer)
    (start : Nat)
    (sizes : size ≤ larger) :
    slice shorter start size <+: slice longer start larger := by
  rcases isPrefix with ⟨rest, rfl⟩
  have taken :
      (shorter.drop start).take size <+:
        ((shorter ++ rest).drop start).take size := by
    rw [List.drop_append, List.take_append]
    exact List.prefix_append _ _
  exact taken.trans (List.take_prefix_take_left sizes)

/-! ## Reading at an offset -/

/-- From `offset` on, `data` reads `rest` and ends. -/
structure ReadsAt (data : Bytes) (offset : Nat) (rest : Bytes) : Prop where
  length_eq : offset + rest.length = data.length
  drop_eq : data.drop offset = rest

theorem ReadsAt.of_le
    {data : Bytes} {offset : Nat}
    (inside : offset ≤ data.length) :
    ReadsAt data offset (data.drop offset) where
  length_eq := by simp [inside]
  drop_eq := rfl

theorem ReadsAt.of_append (front rest : Bytes) :
    ReadsAt (front ++ rest) front.length rest where
  length_eq := List.length_append.symm
  drop_eq := List.drop_left

section

variable {data : Bytes} {offset : Nat} {front rest : Bytes}

/-- What has been read is behind the offset. -/
theorem ReadsAt.advance
    {size : Nat}
    (reads : ReadsAt data offset (front ++ rest))
    (size_eq : front.length = size) :
    ReadsAt data (offset + size) rest where
  length_eq := by
    have total := reads.length_eq
    rw [List.length_append] at total
    omega
  drop_eq := by
    rw [← List.drop_drop, reads.drop_eq, ← size_eq, List.drop_left]

theorem ReadsAt.slice_eq
    {size : Nat}
    (reads : ReadsAt data offset (front ++ rest))
    (size_eq : front.length = size) :
    slice data offset size = front := by
  rw [slice, reads.drop_eq, ← size_eq, List.take_left]

theorem ReadsAt.fits
    {size : Nat}
    (reads : ReadsAt data offset (front ++ rest))
    (size_eq : front.length = size) :
    offset + size ≤ data.length := by
  have total := reads.length_eq
  rw [List.length_append] at total
  omega

/-- A cut behind what is read cuts only the rest. -/
theorem ReadsAt.take
    {kept : Nat}
    (reads : ReadsAt data offset (front ++ rest))
    (behind : offset + front.length ≤ kept)
    (inside : kept ≤ data.length) :
    ReadsAt (data.take kept) offset
      (front ++ rest.take (kept - (offset + front.length))) := by
  have total := reads.length_eq
  rw [List.length_append] at total
  constructor
  · rw [List.length_append, List.length_take, List.length_take,
      Nat.min_eq_left (by omega), Nat.min_eq_left inside]
    omega
  · rw [List.drop_take, reads.drop_eq, List.take_append,
      List.take_of_length_le (by omega), Nat.sub_sub]

/-- A slice inside the data is the front of what is read. -/
theorem ReadsAt.split
    (size : Nat)
    (reads : ReadsAt data offset rest)
    (inside : offset + size ≤ data.length) :
    rest = slice data offset size ++ data.drop (offset + size) ∧
      ReadsAt data (offset + size) (data.drop (offset + size)) := by
  constructor
  · rw [← List.drop_drop, slice, List.take_append_drop, reads.drop_eq]
  · exact ReadsAt.of_le inside

end

/-! ## Pages -/

/-- How many pages of `pageSize` bytes hold `length` bytes. -/
def pageCount (pageSize length : Nat) : Nat :=
  (length + pageSize - 1) / pageSize

theorem lt_pageCount_iff
    {pageSize length index : Nat}
    (positive : 0 < pageSize) :
    index < pageCount pageSize length ↔ index * pageSize < length := by
  rw [pageCount, Nat.lt_div_iff_mul_lt positive]
  omega

/-- `length` rounded up to a whole number of pages. -/
def roundUp (pageSize length : Nat) : Nat :=
  pageCount pageSize length * pageSize

theorem le_roundUp
    {pageSize : Nat} (positive : 0 < pageSize) (length : Nat) :
    length ≤ roundUp pageSize length := by
  by_contra short
  have beyond :
      pageCount pageSize length < pageCount pageSize length :=
    (lt_pageCount_iff positive).2 (not_le.1 short)
  exact lt_irrefl _ beyond

end Confos.Library.ByteStrings
