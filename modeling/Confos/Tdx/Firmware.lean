import Confos.Library.Fallible
import Confos.Tdx.Ccel
import Mathlib.Data.List.Basic

/-!
# TDVF metadata

The section table of a TDX firmware image is found through a table of
GUID-tagged entries that is walked backwards from the end of the image.  An
entry of length zero leaves the walk where it is, so the walk takes the number
of its turns as an argument.
-/

namespace Confos.Tdx.Firmware

open Confos.Library.ByteStrings
open Confos.Library.Fallible
open Confos.Tdx.Ccel

def pageSize : Nat := 0x1000

def attributeMrExtend : UInt32 := 0x00000001
def attributePageAug : UInt32 := 0x00000002

/-! ## GUIDs -/

/-- The value of a hexadecimal digit. -/
def hexValue (digit : Char) : Option Nat :=
  if '0' ≤ digit ∧ digit ≤ '9' then some (digit.toNat - 0x30)
  else if 'a' ≤ digit ∧ digit ≤ 'f' then some (digit.toNat - 0x61 + 10)
  else if 'A' ≤ digit ∧ digit ≤ 'F' then some (digit.toNat - 0x41 + 10)
  else none

/-- `hex::decode`. -/
def hexDecode : List Char → Option Bytes
  | [] => some []
  | [_] => none
  | high :: low :: rest => do
      let high ← hexValue high
      let low ← hexValue low
      let bytes ← hexDecode rest
      return UInt8.ofNat (16 * high + low) :: bytes

theorem hexValue_digitChar :
    ∀ digit < 16, hexValue (Nat.digitChar digit) = some digit := by
  decide

/-- Reading hexadecimal text gives its bytes back. -/
theorem hexDecode_hexEncode (bytes : Bytes) :
    hexDecode (hexEncode bytes).toList = some bytes := by
  rw [hexEncode, String.toList_ofList]
  induction bytes with
  | nil => rfl
  | cons byte bytes induction =>
      have high := Nat.div_lt_of_lt_mul (show byte.toNat < 16 * 16 from
        byte.toNat_lt)
      have low := Nat.mod_lt byte.toNat (show 0 < 16 by decide)
      rw [List.flatMap_cons, hexDigits, List.cons_append, List.cons_append,
        List.nil_append, hexDecode, hexValue_digitChar _ high,
        hexValue_digitChar _ low, induction]
      change some (UInt8.ofNat _ :: bytes) = _
      rw [Nat.div_add_mod, UInt8.ofNat_toNat]

/-- The first three groups are little-endian, the last two are not. -/
def encodeGuid (guid : String) : Except String Bytes :=
  let atoms := guid.toList.splitOn '-'
  if atoms.length ≠ 5 then
    .error s!"Invalid GUID format: {guid}"
  else
    match atoms.mapM hexDecode with
    | none => .error "Failed to decode hex in GUID"
    | some groups =>
        .ok
          ((groups.take 3).flatMap List.reverse ++ (groups.drop 3).flatten)

def tdxMetadataOffsetGuid : String := "e47a6535-984a-4798-865e-4685a7bf8ec2"
def tableFooterGuid : String := "96b582de-1fb2-45f7-baea-a366c55a082d"
def bytesAfterTableFooter : Nat := 32
def minFirmwareSize : Nat := bytesAfterTableFooter + 18

/-! ## Sections -/

structure TdvfSection where
  dataOffset : UInt32
  rawDataSize : UInt32
  memoryAddress : UInt64
  memoryDataSize : UInt64
  secType : UInt32
  attributes : UInt32
deriving DecidableEq, Repr

def TdvfSection.IsExtended (entry : TdvfSection) : Prop :=
  entry.attributes &&& attributeMrExtend ≠ 0

instance (entry : TdvfSection) : Decidable entry.IsExtended :=
  inferInstanceAs (Decidable (_ ≠ _))

/-- A section that `parse` lets through. -/
structure CheckedSection (fw : Bytes) extends TdvfSection where
  address_aligned : pageSize ∣ memoryAddress.toNat
  raw_le : rawDataSize.toNat ≤ memoryDataSize.toNat
  size_aligned : pageSize ∣ memoryDataSize.toNat
  data_fits : dataOffset.toNat + rawDataSize.toNat ≤ fw.length
  extend_fits :
    toTdvfSection.IsExtended →
      dataOffset.toNat + memoryDataSize.toNat ≤ fw.length

structure Tdvf where
  fw : Bytes
  sections : List (CheckedSection fw)

def u64At (data : Bytes) (offset : Nat) : UInt64 :=
  UInt64.ofNat (ofLeBytes (slice data offset 8))

def decodeSection (fw : Bytes) (offset : Nat) : TdvfSection where
  dataOffset := u32At fw offset
  rawDataSize := u32At fw (offset + 4)
  memoryAddress := u64At fw (offset + 8)
  memoryDataSize := u64At fw (offset + 16)
  secType := u32At fw (offset + 24)
  attributes := u32At fw (offset + 28)

/-- The checks of one section, in the order of the source. -/
def checkSection (fw : Bytes) (index : Nat) (entry : TdvfSection) :
    Except String (CheckedSection fw) :=
  if address : pageSize ∣ entry.memoryAddress.toNat then
    if raw : entry.rawDataSize.toNat ≤ entry.memoryDataSize.toNat then
      if size : pageSize ∣ entry.memoryDataSize.toNat then
        if data :
            entry.dataOffset.toNat + entry.rawDataSize.toNat ≤ fw.length then
          if extend :
              entry.IsExtended →
                entry.dataOffset.toNat + entry.memoryDataSize.toNat ≤
                  fw.length then
            .ok
              { entry with
                address_aligned := address
                raw_le := raw
                size_aligned := size
                data_fits := data
                extend_fits := extend }
          else
            .error s!"Section {index} MR_EXTEND region (offset 0x{lowerHex 0 entry.dataOffset.toNat}, size 0x{lowerHex 0 entry.memoryDataSize.toNat}) extends beyond firmware (0x{lowerHex 0 fw.length})"
        else
          .error s!"Section {index} data (offset 0x{lowerHex 0 entry.dataOffset.toNat}, size 0x{lowerHex 0 entry.rawDataSize.toNat}) extends beyond firmware (0x{lowerHex 0 fw.length})"
      else
        .error s!"Section {index} memory_data_size not page-aligned"
    else
      .error s!"Section {index} memory_data_size < raw_data_size"
  else
    .error s!"Section {index} memory address not page-aligned"

/-! ## The table of GUIDs -/

/-- The entries of the table, without its footer. -/
def footerTables (fw : Bytes) : Except String Bytes := do
  if fw.length < minFirmwareSize then
    .error s!"Firmware too small: {fw.length} bytes (need at least {minFirmwareSize})"
  else
    let offset := fw.length - bytesAfterTableFooter
    let encodedFooterGuid ← encodeGuid tableFooterGuid
    if slice fw (offset - 16) 16 ≠ encodedFooterGuid then
      .error "Invalid TDVF footer GUID"
    else
      let tablesLen := (u16At fw (offset - 18)).toNat
      if tablesLen = 0 ∨ offset - 18 < tablesLen then
        .error "Invalid TDVF tables length"
      else
        .ok (slice fw (offset - 18 - tablesLen) tablesLen)

/-- How one turn of the walk over the table ends. -/
inductive TableTurn where
  | ended
  | found (data : Bytes)
  | next (tblOffset : Nat)
deriving DecidableEq, Repr

/-- One turn of the walk, at an offset counted from the table's start. -/
def tableTurn (encodedGuid tables : Bytes) (tblOffset : Nat) :
    Except String TableTurn :=
  if tblOffset < 18 then
    .ok .ended
  else
    let entryLen := (u16At tables (tblOffset - 18)).toNat
    if tblOffset - 18 < entryLen then
      .error "Invalid TDVF entry length"
    else if slice tables (tblOffset - 16) 16 = encodedGuid then
      .ok (.found (slice tables (tblOffset - 18 - entryLen) entryLen))
    else
      .ok (.next (tblOffset - entryLen))

/-- The walk, if it ends within a number of turns. -/
def walkTables (encodedGuid tables : Bytes) :
    Nat → Nat → Option (Except String (Option Bytes))
  | 0, _ => none
  | turns + 1, tblOffset =>
      match tableTurn encodedGuid tables tblOffset with
      | .error problem => some (.error problem)
      | .ok .ended => some (.ok none)
      | .ok (.found data) => some (.ok (some data))
      | .ok (.next tblOffset) =>
          walkTables encodedGuid tables turns tblOffset

/-! ## The section table -/

/-- The offset of the TDVF descriptor that a table entry points to. -/
def metaOffset (fw data : Bytes) : Except String Nat :=
  if data.length < 4 then
    .error "TDVF metadata entry too short"
  else
    let metaOffsetRaw := (u32At data (data.length - 4)).toNat
    if fw.length < metaOffsetRaw then
      .error s!"TDVF metadata offset ({metaOffsetRaw}) exceeds firmware size ({fw.length})"
    else if fw.length < fw.length - metaOffsetRaw + 16 then
      .error "TDVF metadata descriptor extends beyond firmware"
    else
      .ok (fw.length - metaOffsetRaw)

/-- The number of sections a descriptor states. -/
def sectionCount (fw : Bytes) (tdvfMetaOffset : Nat) : Except String Nat :=
  if slice fw tdvfMetaOffset 4 ≠ utf8Bytes "TDVF" then
    .error "Invalid TDVF descriptor"
  else if u32At fw (tdvfMetaOffset + 8) ≠ 1 then
    .error s!"Unsupported TDVF version: {u32At fw (tdvfMetaOffset + 8)}"
  else
    let numSections := (u32At fw (tdvfMetaOffset + 12)).toNat
    if fw.length < tdvfMetaOffset + 16 + numSections * 32 then
      .error s!"TDVF section table ({numSections} sections) extends beyond firmware at offset 0x{lowerHex 0 tdvfMetaOffset}"
    else
      .ok numSections

def parseSections (fw data : Bytes) : Except String (List (CheckedSection fw)) := do
  let tdvfMetaOffset ← metaOffset fw data
  let numSections ← sectionCount fw tdvfMetaOffset
  (List.range numSections).mapM fun index =>
    checkSection fw index
      (decodeSection fw (tdvfMetaOffset + 16 + 32 * index))

/-- What follows the walk over the table. -/
def parseFound (fw : Bytes) : Option Bytes → Except String Tdvf
  | none => .error "Missing TDVF metadata"
  | some data => do
      let sections ← parseSections fw data
      return { fw, sections }

/-- `Tdvf::parse`, if the walk over the table ends within some turns. -/
def parse (turns : Nat) (fw : Bytes) : Option (Except String Tdvf) :=
  match footerTables fw, encodeGuid tdxMetadataOffsetGuid with
  | .error problem, _ => some (.error problem)
  | .ok _, .error problem => some (.error problem)
  | .ok tables, .ok encodedGuid =>
      (walkTables encodedGuid tables turns tables.length).map fun walked =>
        walked >>= parseFound fw

/-- The image that is parsed is the one that is measured. -/
theorem fw_of_parse
    {turns : Nat} {fw : Bytes} {tdvf : Tdvf}
    (parsed : parse turns fw = some (.ok tdvf)) : tdvf.fw = fw := by
  rw [parse] at parsed
  split at parsed
  · cases parsed
  · cases parsed
  · rcases Option.map_eq_some_iff.1 parsed with ⟨walked, -, finished⟩
    rcases bind_eq_ok.1 finished with ⟨found, -, parsedFound⟩
    cases found with
    | none => cases parsedFound
    | some data =>
        rcases bind_eq_ok.1 parsedFound with ⟨sections, -, returned⟩
        cases returned
        rfl

/-! ## A small image -/

/-- One page that is added and not extended, behind a byte nothing points to. -/
def sampleFirmware (filler : UInt8) : Bytes :=
  [filler] ++ utf8Bytes "TDVF" ++ leBytes 4 0 ++ leBytes 4 1 ++ leBytes 4 1 ++
    (leBytes 4 0 ++ leBytes 4 0 ++ leBytes 8 0x1000 ++ leBytes 8 0x1000 ++
      leBytes 4 3 ++ leBytes 4 0) ++
    (leBytes 4 120 ++ leBytes 2 4 ++
      [0x35, 0x65, 0x7a, 0xe4, 0x4a, 0x98, 0x98, 0x47, 0x86, 0x5e, 0x46, 0x85,
        0xa7, 0xbf, 0x8e, 0xc2]) ++
    leBytes 2 22 ++
    [0xde, 0x82, 0xb5, 0x96, 0xb2, 0x1f, 0xf7, 0x45, 0xba, 0xea, 0xa3, 0x66,
      0xc5, 0x5a, 0x08, 0x2d] ++
    List.replicate 32 0

end Confos.Tdx.Firmware
