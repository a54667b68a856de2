import Confos.Library.ByteStrings

/-!
# Archives in the newc format

An entry of a newc archive is a header of 110 bytes, whose fields are written
in hexadecimal, the name with a zero behind it, and the data; zeros fill the
name and the data up to a multiple of four.  The reader takes entries up to the
trailer and hands out what is behind it.
-/

namespace Confos.Library.NewcArchives

open Confos.Library.ByteStrings

/-! ## Hexadecimal fields -/

/-- A hexadecimal digit in either case. -/
def hexDigitOf (byte : UInt8) : Option Nat :=
  if 0x30 ≤ byte ∧ byte ≤ 0x39 then
    some (byte.toNat - 0x30)
  else if 0x41 ≤ byte ∧ byte ≤ 0x46 then
    some (byte.toNat - 0x41 + 10)
  else if 0x61 ≤ byte ∧ byte ≤ 0x66 then
    some (byte.toNat - 0x61 + 10)
  else
    none

/-- The number that digits go on with. -/
def hexNumber : Nat → Bytes → Option Nat
  | value, [] => some value
  | value, byte :: bytes =>
      match hexDigitOf byte with
      | none => none
      | some digit => hexNumber (16 * value + digit) bytes

/-- One field of a header. -/
def hexField (value : Nat) : Bytes :=
  utf8Bytes (lowerHex 8 value)

/-! ## Entries -/

structure Entry where
  ino : Nat
  mode : Nat
  uid : Nat := 0
  gid : Nat := 0
  nlink : Nat := 1
  mtime : Nat := 0
  devMajor : Nat := 0
  devMinor : Nat := 0
  rdevMajor : Nat := 0
  rdevMinor : Nat := 0
  check : Nat := 0
  name : Bytes
  data : Bytes
deriving DecidableEq, Repr

def magic : Bytes :=
  utf8Bytes "070701"

def headerSize : Nat := 110

/-- How many zeros are missing to a multiple of four. -/
def padding (length : Nat) : Nat :=
  (4 - length % 4) % 4

def zeros (count : Nat) : Bytes :=
  List.replicate count 0

/-- The fields of a header in their order. -/
def Entry.fields (entry : Entry) : List Nat :=
  [entry.ino, entry.mode, entry.uid, entry.gid, entry.nlink, entry.mtime,
    entry.data.length, entry.devMajor, entry.devMinor, entry.rdevMajor,
    entry.rdevMinor, entry.name.length + 1, entry.check]

def Entry.encode (entry : Entry) : Bytes :=
  magic ++ entry.fields.flatMap hexField ++ entry.name ++ [0] ++
    zeros (padding (headerSize + (entry.name.length + 1))) ++ entry.data ++
      zeros (padding entry.data.length)

/-- The numbers of an entry have eight hexadecimal digits. -/
def Entry.Fits (entry : Entry) : Prop :=
  ∀ field ∈ entry.fields, field < 16 ^ 8

/-! ## Reading -/

/-- So many fields of eight digits. -/
def readFields : Nat → Bytes → Option (List Nat)
  | 0, _ => some []
  | count + 1, bytes =>
      match hexNumber 0 (bytes.take 8) with
      | none => none
      | some value => (readFields count (bytes.drop 8)).map (value :: ·)

/-- A name and the zero that ends it. -/
def readName (bytes : Bytes) : Option Bytes :=
  if bytes.getLast? = some 0 then some bytes.dropLast else none

/-- What the fields say stands behind the header, and the rest. -/
def readBody (bytes : Bytes) : List Nat → Option (Entry × Bytes)
  | [ino, mode, uid, gid, nlink, mtime, fileSize, devMajor, devMinor,
      rdevMajor, rdevMinor, nameSize, check] =>
      let nameEnd := headerSize + nameSize
      let dataStart := nameEnd + padding nameEnd
      let dataEnd := dataStart + fileSize
      let stop := dataEnd + padding fileSize
      if bytes.length < stop ∨
          slice bytes nameEnd (padding nameEnd) ≠ zeros (padding nameEnd) ∨
          slice bytes dataEnd (padding fileSize) ≠ zeros (padding fileSize) then
        none
      else
        (readName (slice bytes headerSize nameSize)).map fun name =>
          ({ ino, mode, uid, gid, nlink, mtime, devMajor, devMinor, rdevMajor,
             rdevMinor, check, name, data := slice bytes dataStart fileSize },
            bytes.drop stop)
  | _ => none

def readEntry (bytes : Bytes) : Option (Entry × Bytes) :=
  if slice bytes 0 6 = magic then
    (readFields 13 (bytes.drop 6)).bind (readBody bytes)
  else
    none

def trailerName : Bytes :=
  utf8Bytes "TRAILER!!!"

/-- The entries in front of the trailer, in so many turns, and the rest. -/
def readEntries : Nat → Bytes → Option (List Entry × Bytes)
  | 0, _ => none
  | turns + 1, bytes =>
      match readEntry bytes with
      | none => none
      | some (entry, rest) =>
          if entry.name = trailerName then
            some ([], rest)
          else
            (readEntries turns rest).map fun read => (entry :: read.1, read.2)

/-- The entries of an archive, and what is left behind its trailer. -/
def readArchive (bytes : Bytes) : Option (List Entry × Bytes) :=
  readEntries bytes.length bytes

/-! ## What a field is read as -/

theorem hexDigitOf_digitChar :
    ∀ digit < 16,
      hexDigitOf (UInt8.ofNat (Nat.digitChar digit).toNat) = some digit := by
  decide

theorem toNat_digitChar_lt :
    ∀ digit < 16, (Nat.digitChar digit).toNat < 128 := by
  decide

theorem hexNumber_append (value : Nat) (front back : Bytes) :
    hexNumber value (front ++ back) =
      (hexNumber value front).bind fun read => hexNumber read back := by
  induction front generalizing value with
  | nil => rfl
  | cons byte front induction =>
      rw [List.cons_append, hexNumber, hexNumber]
      cases hexDigitOf byte with
      | none => rfl
      | some digit => exact induction _

/-- The characters of a number in hexadecimal, as bytes. -/
def digitBytes (value : Nat) : Bytes :=
  (Nat.toDigits 16 value).map fun char => UInt8.ofNat char.toNat

theorem digitBytes_of_lt {value : Nat} (small : value < 16) :
    digitBytes value = [UInt8.ofNat (Nat.digitChar value).toNat] := by
  rw [digitBytes, Nat.toDigits_of_lt_base small, List.map_singleton]

theorem digitBytes_of_le {value : Nat} (large : 16 ≤ value) :
    digitBytes value =
      digitBytes (value / 16) ++
        [UInt8.ofNat (Nat.digitChar (value % 16)).toNat] := by
  rw [digitBytes, Nat.toDigits_of_base_le (by decide) large, List.map_append,
    List.map_singleton]
  rfl

theorem hexNumber_digitBytes (value : Nat) :
    hexNumber 0 (digitBytes value) = some value := by
  induction value using Nat.strong_induction_on with
  | h value induction =>
      rcases lt_or_ge value 16 with small | large
      · rw [digitBytes_of_lt small, hexNumber, hexDigitOf_digitChar _ small]
        simp [hexNumber]
      · have lower : value / 16 < value := Nat.div_lt_self (by omega) (by decide)
        have digit : value % 16 < 16 := Nat.mod_lt _ (by decide)
        rw [digitBytes_of_le large, hexNumber_append, induction _ lower,
          Option.bind_some, hexNumber, hexDigitOf_digitChar _ digit]
        exact congrArg some (Nat.div_add_mod value 16)

theorem hexNumber_zeros (count : Nat) (bytes : Bytes) :
    hexNumber 0 (List.replicate count 0x30 ++ bytes) = hexNumber 0 bytes := by
  induction count with
  | zero => rfl
  | succ count induction =>
      rw [List.replicate_succ, List.cons_append, hexNumber]
      exact induction

theorem forall_toDigits_lt (value : Nat) :
    ∀ char ∈ Nat.toDigits 16 value, char.toNat < 128 := by
  induction value using Nat.strong_induction_on with
  | h value induction =>
      rcases lt_or_ge value 16 with small | large
      · rw [Nat.toDigits_of_lt_base small, List.forall_mem_singleton]
        exact toNat_digitChar_lt value small
      · rw [Nat.toDigits_of_base_le (by decide) large, List.forall_mem_append,
          List.forall_mem_singleton]
        exact
          ⟨induction _ (Nat.div_lt_self (by omega) (by decide)),
            toNat_digitChar_lt _ (Nat.mod_lt _ (by decide))⟩

theorem flatMap_utf8EncodeChar
    {text : List Char} (ascii : ∀ char ∈ text, char.toNat < 128) :
    text.flatMap String.utf8EncodeChar =
      text.map fun char => UInt8.ofNat char.toNat := by
  rw [List.map_eq_flatMap]
  exact List.flatMap_congr fun char member =>
    utf8EncodeChar_of_lt (ascii char member)

theorem hexField_eq (value : Nat) :
    hexField value =
      List.replicate (8 - (Nat.toDigits 16 value).length) 0x30 ++
        digitBytes value := by
  rw [hexField, lowerHex, utf8Bytes_ofList, flatMap_utf8EncodeChar,
    List.map_append, List.map_replicate]
  · rfl
  · rw [List.forall_mem_append]
    refine ⟨fun char member => ?_, forall_toDigits_lt value⟩
    rw [List.eq_of_mem_replicate member]
    decide

theorem hexNumber_hexField (value : Nat) :
    hexNumber 0 (hexField value) = some value := by
  rw [hexField_eq, hexNumber_zeros, hexNumber_digitBytes]

theorem length_hexField {value : Nat} (small : value < 16 ^ 8) :
    (hexField value).length = 8 := by
  have digits := (Nat.length_toDigits_le_iff (by decide) (by decide)).2 small
  rw [hexField_eq, List.length_append, List.length_replicate, digitBytes,
    List.length_map]
  omega

theorem readFields_flatMap_hexField
    {values : List Nat} (small : ∀ value ∈ values, value < 16 ^ 8)
    (rest : Bytes) :
    readFields values.length (values.flatMap hexField ++ rest) =
      some values := by
  induction values with
  | nil => rfl
  | cons value values induction =>
      rcases List.forall_mem_cons.1 small with ⟨first, others⟩
      have length := length_hexField first
      rw [List.flatMap_cons, List.append_assoc, List.length_cons, readFields,
        List.take_left' length, hexNumber_hexField, List.drop_left' length]
      dsimp only
      rw [induction others]
      rfl

/-! ## Reading what is written -/

theorem length_magic : magic.length = 6 := by decide

theorem length_zeros (count : Nat) : (zeros count).length = count :=
  List.length_replicate

theorem padding_add (length : Nat) : (length + padding length) % 4 = 0 := by
  rw [padding]
  omega

theorem padding_of_dvd {length : Nat} (aligned : length % 4 = 0) :
    padding length = 0 := by
  rw [padding, aligned]

namespace Entry

variable {entry : Entry}

theorem length_flatMap_hexField
    {values : List Nat} (small : ∀ value ∈ values, value < 16 ^ 8) :
    (values.flatMap hexField).length = 8 * values.length := by
  induction values with
  | nil => rfl
  | cons value values induction =>
      rcases List.forall_mem_cons.1 small with ⟨first, others⟩
      rw [List.flatMap_cons, List.length_append, length_hexField first,
        induction others, List.length_cons]
      omega

theorem readName_append (name : Bytes) : readName (name ++ [0]) = some name := by
  rw [readName, if_pos List.getLast?_concat, List.dropLast_concat]

/-- Where the parts of an entry stand. -/
theorem readsAt_encode (entry : Entry) (rest : Bytes) :
    ReadsAt (entry.encode ++ rest) 0
      (magic ++ (entry.fields.flatMap hexField ++ ((entry.name ++ [0]) ++
        (zeros (padding (headerSize + (entry.name.length + 1))) ++
          (entry.data ++ (zeros (padding entry.data.length) ++ rest)))))) := by
  have whole :
      entry.encode ++ rest =
        magic ++ (entry.fields.flatMap hexField ++ ((entry.name ++ [0]) ++
          (zeros (padding (headerSize + (entry.name.length + 1))) ++
            (entry.data ++
              (zeros (padding entry.data.length) ++ rest))))) := by
    simp only [encode, List.append_assoc]
  rw [← whole]
  exact ReadsAt.of_le (Nat.zero_le _)

/-- An entry is read back, whatever stands behind it. -/
theorem readEntry_encode (fits : entry.Fits) (rest : Bytes) :
    readEntry (entry.encode ++ rest) = some (entry, rest) := by
  have atMagic := readsAt_encode entry rest
  have atFields := atMagic.advance length_magic
  have atName :=
    atFields.advance (length_flatMap_hexField fits)
  have nameSize : (entry.name ++ [0]).length = entry.name.length + 1 := by
    rw [List.length_append, List.length_singleton]
  have atPadding := atName.advance nameSize
  have atData := atPadding.advance (length_zeros _)
  have atEnd := atData.advance rfl
  have atRest := atEnd.advance (length_zeros _)
  have headerEnd : 0 + 6 + 8 * entry.fields.length = headerSize := rfl
  rw [headerEnd] at atName atPadding atData atEnd atRest
  have total := atRest.length_eq
  rw [readEntry, if_pos (atMagic.slice_eq length_magic)]
  have fields :
      readFields 13 ((entry.encode ++ rest).drop 6) = some entry.fields := by
    have front := atFields.drop_eq
    rw [Nat.zero_add] at front
    rw [front]
    exact readFields_flatMap_hexField fits _
  rw [fields, Option.bind_some]
  change
    (if _ ∨ _ ∨ _ then none else
      (readName (slice _ headerSize (entry.name.length + 1))).map _) = _
  rw [if_neg, atName.slice_eq nameSize, readName_append, Option.map_some,
    atData.slice_eq rfl]
  · rw [atRest.drop_eq]
  · rintro (short | namePadding | dataPadding)
    · omega
    · exact namePadding (atPadding.slice_eq (length_zeros _))
    · exact dataPadding (atEnd.slice_eq (length_zeros _))

theorem length_encode (fits : entry.Fits) :
    entry.encode.length =
      headerSize + (entry.name.length + 1) +
        padding (headerSize + (entry.name.length + 1)) +
          (entry.data.length + padding entry.data.length) := by
  simp only [encode, List.length_append, length_magic,
    length_flatMap_hexField fits, length_zeros, List.length_singleton]
  have count : entry.fields.length = 13 := rfl
  rw [count, headerSize]
  omega

/-- The next entry starts at a multiple of four again. -/
theorem length_encode_mod (fits : entry.Fits) : entry.encode.length % 4 = 0 := by
  have name := padding_add (headerSize + (entry.name.length + 1))
  have data := padding_add entry.data.length
  rw [length_encode fits]
  omega

end Entry

/-- Entries in front of the trailer are read one by one. -/
theorem readEntries_encode
    {entry : Entry} (fits : entry.Fits) (named : entry.name ≠ trailerName)
    (turns : Nat) (rest : Bytes) :
    readEntries (turns + 1) (entry.encode ++ rest) =
      (readEntries turns rest).map fun read => (entry :: read.1, read.2) := by
  rw [readEntries, entry.readEntry_encode fits]
  exact if_neg named

end Confos.Library.NewcArchives
