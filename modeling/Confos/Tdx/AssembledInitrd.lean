import Confos.Library.NewcArchives
import Confos.Tdx.Rtmr

/-!
# The initrd the stub hands over

The prediction puts an archive with the os-release file behind the initrd.  A
reader of the newc format finds the entries that were written and nothing
behind them, and the archive starts at a multiple of four.
-/

namespace Confos.Tdx.AssembledInitrd

open Confos.Library.ByteStrings
open Confos.Library.NewcArchives
open Confos.Tdx.Rtmr

/-! ## The entries -/

/-- The entry that `append_cpio_entry` writes. -/
def cpioEntryOf (name : String) (data : Bytes) (ino mode : Nat) : Entry where
  ino := ino
  mode := mode
  name := utf8Bytes name
  data := data

/-- The directory `.extra`. -/
def extraEntry : Entry :=
  cpioEntryOf ".extra" [] 1 0o040555

/-- The file `.extra/os-release`. -/
def osReleaseEntry (osrelData : Bytes) : Entry :=
  cpioEntryOf ".extra/os-release" osrelData 2 0o0100444

theorem pad4_eq (length : Nat) : pad4 length = zeros (padding length) := rfl

theorem eight_zeros : utf8Bytes "00000000" = hexField 0 := by decide

/-- The header is written field by field. -/
theorem utf8Bytes_header (ino mode fileSize nameSize : Nat) :
    utf8Bytes
        s!"070701{lowerHex 8 ino}{lowerHex 8 mode}00000000000000000000000100000000{lowerHex 8 fileSize}00000000000000000000000000000000{lowerHex 8 nameSize}00000000" =
      magic ++
        [ino, mode, 0, 0, 1, 0, fileSize, 0, 0, 0, 0, nameSize, 0].flatMap
          hexField := by
  have owners :
      utf8Bytes "00000000000000000000000100000000" =
        hexField 0 ++ hexField 0 ++ hexField 1 ++ hexField 0 := by decide
  have devices :
      utf8Bytes "00000000000000000000000000000000" =
        hexField 0 ++ hexField 0 ++ hexField 0 ++ hexField 0 := by decide
  change
    utf8Bytes
      ("070701" ++ lowerHex 8 ino ++ lowerHex 8 mode ++
        "00000000000000000000000100000000" ++ lowerHex 8 fileSize ++
          "00000000000000000000000000000000" ++ lowerHex 8 nameSize ++
            "00000000") = _
  simp only [utf8Bytes_append, owners, devices, eight_zeros]
  simp [magic, hexField]

/-- An entry is written in the newc format. -/
theorem cpioEntry_eq
    {name : String} {data : Bytes} {ino mode : Nat}
    (fits : (cpioEntryOf name data ino mode).Fits) :
    cpioEntry name data ino mode =
      (cpioEntryOf name data ino mode).encode := by
  have size : name.utf8ByteSize = (utf8Bytes name).length :=
    (length_utf8Bytes name).symm
  have headerLength :
      (magic ++ (cpioEntryOf name data ino mode).fields.flatMap hexField ++
          utf8Bytes name ++ [0]).length =
        headerSize + ((utf8Bytes name).length + 1) := by
    simp only [List.length_append, length_magic,
      Entry.length_flatMap_hexField fits, List.length_singleton]
    exact Nat.add_assoc headerSize _ 1
  have dataPart :
      (if data.isEmpty then [] else data ++ pad4 data.length) =
        data ++ zeros (padding data.length) := by
    cases data with
    | nil => rfl
    | cons byte data => rfl
  have fields :
      (cpioEntryOf name data ino mode).fields =
        [ino, mode, 0, 0, 1, 0, data.length, 0, 0, 0, 0,
          (utf8Bytes name).length + 1, 0] := rfl
  rw [fields] at headerLength
  rw [cpioEntry, utf8Bytes_header, size, dataPart, Entry.encode, fields,
    headerLength, ← List.append_assoc]
  rfl

/-! ## The archive -/

theorem fits_extraEntry : extraEntry.Fits := by
  rw [Entry.Fits]
  decide

theorem fits_osReleaseEntry
    {osrelData : Bytes} (small : osrelData.length < 2 ^ 32) :
    (osReleaseEntry osrelData).Fits := by
  have name : ((utf8Bytes ".extra/os-release").length + 1) = 18 := by decide
  simp only [Entry.Fits, Entry.fields, osReleaseEntry, cpioEntryOf, name,
    List.forall_mem_cons, List.not_mem_nil, false_implies, implies_true,
    and_true]
  omega

theorem readEntries_cpioTrailer (turns : Nat) :
    readEntries (turns + 1) cpioTrailer = some ([], []) := by
  rw [readEntries]
  have read :
      readEntry cpioTrailer =
        some (cpioEntryOf "TRAILER!!!" [] 0 0, []) := by
    decide +kernel
  rw [read]
  rfl

/-- The archive by its entries. -/
theorem buildOsrelCpio_eq
    {osrelData : Bytes} (small : osrelData.length < 2 ^ 32) :
    buildOsrelCpio osrelData =
      extraEntry.encode ++
        ((osReleaseEntry osrelData).encode ++ cpioTrailer) := by
  rw [buildOsrelCpio, cpioEntry_eq fits_extraEntry,
    cpioEntry_eq (fits_osReleaseEntry small), List.append_assoc]
  rfl

theorem readArchive_buildOsrelCpio
    {osrelData : Bytes} (small : osrelData.length < 2 ^ 32) :
    readArchive (buildOsrelCpio osrelData) =
      some ([extraEntry, osReleaseEntry osrelData], []) := by
  have length : ∃ turns, (buildOsrelCpio osrelData).length = turns + 3 := by
    refine ⟨(buildOsrelCpio osrelData).length - 3, ?_⟩
    have trailer : cpioTrailer.length = 124 := by decide +kernel
    rw [buildOsrelCpio, List.length_append, trailer]
    omega
  rcases length with ⟨turns, length⟩
  have named : (osReleaseEntry osrelData).name ≠ trailerName := by
    change utf8Bytes ".extra/os-release" ≠ trailerName
    decide
  rw [readArchive, length, buildOsrelCpio_eq small,
    readEntries_encode fits_extraEntry (by decide +kernel),
    readEntries_encode (fits_osReleaseEntry small) named,
    readEntries_cpioTrailer]
  rfl

/-- The archive fills whole groups of four bytes. -/
theorem length_buildOsrelCpio_mod
    {osrelData : Bytes} (small : osrelData.length < 2 ^ 32) :
    (buildOsrelCpio osrelData).length % 4 = 0 := by
  have extra := Entry.length_encode_mod fits_extraEntry
  have osRelease := Entry.length_encode_mod (fits_osReleaseEntry small)
  have trailer : cpioTrailer.length = 124 := by decide +kernel
  rw [buildOsrelCpio_eq small, List.length_append, List.length_append, trailer]
  omega

/-! ## The assembled initrd -/

/--
What is measured as the initrd is the initrd itself, zeros up to a multiple of
four, and an archive that holds the directory and the file.
-/
theorem buildAssembledInitrd_wellFormed
    (initrd : Bytes) {osrelData : Bytes} (small : osrelData.length < 2 ^ 32) :
    readArchive (buildOsrelCpio osrelData) =
        some ([extraEntry, osReleaseEntry osrelData], []) ∧
      buildAssembledInitrd initrd osrelData =
        initrd ++ zeros (padding initrd.length) ++ buildOsrelCpio osrelData ∧
      (initrd ++ zeros (padding initrd.length)).length % 4 = 0 ∧
      (buildAssembledInitrd initrd osrelData).length % 4 = 0 := by
  have archive := length_buildOsrelCpio_mod small
  have front := padding_add initrd.length
  have assembled :
      buildAssembledInitrd initrd osrelData =
        initrd ++ zeros (padding initrd.length) ++
          buildOsrelCpio osrelData := by
    rw [buildAssembledInitrd, pad4_eq, pad4_eq, padding_of_dvd archive]
    exact List.append_nil _
  refine ⟨readArchive_buildOsrelCpio small, assembled, ?_, ?_⟩
  · rw [List.length_append, length_zeros]
    exact front
  · rw [assembled, List.length_append, List.length_append, length_zeros]
    omega

theorem buildAssembledInitrd_wellFormed_sample :
    readArchive (buildOsrelCpio [0x49, 0x44]) =
        some ([extraEntry, osReleaseEntry [0x49, 0x44]], []) ∧
      buildAssembledInitrd [1, 2, 3] [0x49, 0x44] =
        [1, 2, 3] ++ zeros (padding 3) ++ buildOsrelCpio [0x49, 0x44] ∧
      ([1, 2, 3] ++ zeros (padding 3)).length % 4 = 0 ∧
      (buildAssembledInitrd [1, 2, 3] [0x49, 0x44]).length % 4 = 0 :=
  buildAssembledInitrd_wellFormed [1, 2, 3] (by decide)

end Confos.Tdx.AssembledInitrd
