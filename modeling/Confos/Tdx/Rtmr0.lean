import Confos.Tdx.Firmware
import Confos.Tdx.Rtmr
import Mathlib.Data.List.Sort

/-!
# RTMR[0]

The firmware measures the hand-off block that describes guest memory, its
variable store, the Secure Boot variables, the ACPI tables and the boot
variables into RTMR[0].  The first two follow from the image and the memory
size; the digests of the ACPI tables and the boot variables are taken from the
event log of an earlier boot.
-/

namespace Confos.Tdx.Rtmr0

open Confos.Library.ByteStrings
open Confos.Tdx.Ccel
open Confos.Tdx.Firmware
open Confos.Tdx.Rtmr

/-! ## UEFI variables -/

def encodeUtf16Le (text : String) : Bytes :=
  (text.toList.flatMap encodeUtf16).flatMap fun unit => leBytes 2 unit.toNat

/-- The bytes that stand for an EFI variable. -/
def efiVariableMessage
    (vendorGuid varName : String) (varData : Option Bytes) :
    Except String Bytes := do
  let guid ← encodeGuid vendorGuid
  return guid ++ leBytes 8 (varName.toList.flatMap encodeUtf16).length ++
    leBytes 8 (varData.getD []).length ++ encodeUtf16Le varName ++
      varData.getD []

/-- The character of a UTF-16 code unit, which half a pair is none. -/
def charOfUnit (unit : UInt16) : Option Char :=
  if unit.toNat < 0xD800 ∨ 0xE000 ≤ unit.toNat then
    some (Char.ofNat unit.toNat)
  else
    none

/-- The name of a variable in its UTF-16 form. -/
def decodeUtf16Le (bytes : Bytes) : String :=
  String.ofList
    ((List.range (bytes.length / 2)).filterMap fun index =>
      charOfUnit (u16At bytes (2 * index)))

/-- `parse_uefi_variable_data`; a length that overflows is past the end. -/
def parseUefiVariableData (eventData : Bytes) : Option (String × Bytes) :=
  if eventData.length < 32 then
    none
  else
    let nameEnd := 32 + (u64At eventData 16).toNat * 2
    let dataEnd := nameEnd + (u64At eventData 24).toNat
    if eventData.length < dataEnd ∨ eventData.length < nameEnd then
      none
    else
      some
        (decodeUtf16Le (slice eventData 32 (nameEnd - 32)),
          slice eventData nameEnd (dataEnd - nameEnd))

/-! ## What an event log holds -/

structure AcpiHashes where
  loaderHash : Bytes
  rsdpHash : Bytes
  tablesHash : Bytes
deriving DecidableEq, Repr

/-- The loop over the events: the separator seen, and the digests behind it. -/
def acpiStep (state : Bool × List Bytes) (event : CcelEvent) :
    Bool × List Bytes :=
  if event.mrIndex ≠ 1 then
    state
  else if event.eventType = 0x00000004 then
    (true, state.2)
  else if state.1 ∧ event.eventType = 0x0000000a then
    (state.1, state.2 ++ [event.sha384Digest])
  else
    state

def AcpiHashes.ofDigests (digests : List Bytes) :
    Except String AcpiHashes :=
  match digests with
  | loader :: rsdp :: tables :: _ =>
      match [loader, rsdp, tables].zipIdx.find? (·.1.length ≠ 48) with
      | some (digest, index) =>
          .error s!"ACPI digest {index} from CCEL has wrong length: {digest.length} (expected 48)"
      | none =>
          .ok
            { loaderHash := loader, rsdpHash := rsdp, tablesHash := tables }
  | _ => .error s!"Expected 3 ACPI events in CCEL, found {digests.length}"

def AcpiHashes.extractFromCcel (ccelData : Bytes) :
    Except String AcpiHashes := do
  let events ← parseCcel ccelData
  AcpiHashes.ofDigests (events.foldl acpiStep (false, [])).2

structure BootVars where
  entries : List Bytes
deriving DecidableEq, Repr

/-- The value of a boot variable event of RTMR[0]. -/
def bootVarOf (event : CcelEvent) : Option Bytes :=
  if event.eventType = 0x80000002 ∧ event.mrIndex = 1 then
    (parseUefiVariableData event.eventData).map (·.2)
  else
    none

def BootVars.extractFromCcel (ccelData : Bytes) :
    Except String BootVars := do
  let events ← parseCcel ccelData
  let entries := events.filterMap bootVarOf
  if entries.isEmpty then
    .error "No EV_EFI_VARIABLE_BOOT events found in CCEL"
  else
    return { entries }

/-! ## Guest memory -/

structure MemoryRange where
  accepted : Bool
  start : Nat
  stop : Nat
deriving DecidableEq, Repr

/-- What is left of a range when part of it is accepted. -/
def MemoryRange.without (range : MemoryRange) (start stop : Nat) :
    List MemoryRange :=
  if range.accepted ∨ range.stop ≤ start ∨ stop ≤ range.start then
    [range]
  else
    (if range.start < start then
        [{ accepted := false, start := range.start, stop := start }]
      else
        []) ++
      if stop < range.stop then
        [{ accepted := false, start := stop, stop := range.stop }]
      else
        []

structure MemoryAcceptor where
  ranges : List MemoryRange
deriving DecidableEq, Repr

/-- The whole of guest memory, not accepted yet. -/
def MemoryAcceptor.new (start size : Nat) : Except String MemoryAcceptor :=
  if start + size < 2 ^ 64 then
    .ok
      { ranges := [{ accepted := false, start, stop := start + size }] }
  else
    .error "MemoryAcceptor: start + size overflow"

def MemoryAcceptor.accept (acceptor : MemoryAcceptor) (start stop : Nat) :
    MemoryAcceptor :=
  if stop ≤ start then
    acceptor
  else
    let accepted : MemoryRange := { accepted := true, start, stop }
    { ranges :=
        (acceptor.ranges.flatMap (fun range => range.without start stop) ++
            [accepted]).insertionSort
          fun left right : MemoryRange => left.start ≤ right.start }

/-! ## The hand-off block -/

def tdvfSectionTdCfv : UInt32 := 0x01
def tdvfSectionTdHob : UInt32 := 0x02
def tdvfSectionTempMem : UInt32 := 0x03

/-- The sections that the firmware accepts, and where the block is placed. -/
def acceptSection (state : MemoryAcceptor × Nat) (entry : TdvfSection) :
    Except String (MemoryAcceptor × Nat) := do
  let base :=
    if entry.secType = tdvfSectionTdHob then entry.memoryAddress.toNat
    else state.2
  if entry.secType = tdvfSectionTdHob ∨
      entry.secType = tdvfSectionTempMem then
    let acceptEnd :=
      entry.memoryAddress.toNat + entry.memoryDataSize.toNat
    if acceptEnd < 2 ^ 64 then
      .ok (state.1.accept entry.memoryAddress.toNat acceptEnd, base)
    else
      .error "section memory_address + memory_data_size overflow"
  else
    .ok (state.1, base)

/-- `EFI_HOB_HANDOFF_INFO_TABLE`, its last field still empty. -/
def phitHob : Bytes :=
  [0x01, 0x00] ++ leBytes 2 56 ++ leBytes 4 0 ++ leBytes 4 9 ++
    leBytes 4 0 ++ List.replicate 40 0

/-- One resource descriptor. -/
def resourceHob (resourceType : UInt8) (start length : Nat) : Bytes :=
  [0x03, 0x00] ++ leBytes 2 48 ++ leBytes 4 0 ++ List.replicate 16 0 ++
    [resourceType] ++ List.replicate 3 0 ++ leBytes 4 0x00000007 ++
      leBytes 8 start ++ leBytes 8 length

def rangeHob (range : MemoryRange) : Bytes :=
  resourceHob (if range.accepted then 0x00 else 0x07) range.start
    (range.stop - range.start)

/-- The descriptors of the last range; a large one is cut at 2 GiB. -/
def lastHobs (memorySize : Nat) (last : MemoryRange) :
    Except String Bytes :=
  if 0xB0000000 ≤ memorySize then
    if 0x80000000 ≤ last.start then
      .error s!"TD HOB: last memory range starts at 0x{lowerHex 0 last.start}, expected below 0x80000000"
    else if last.stop < 0x80000000 then
      .error s!"TD HOB: last memory range ends at 0x{lowerHex 0 last.stop}, expected above 0x80000000"
    else
      .ok
        (resourceHob 0x07 last.start (0x80000000 - last.start) ++
          resourceHob 0x07 0x100000000 (last.stop - 0x80000000))
  else
    .ok (resourceHob 0x07 last.start (last.stop - last.start))

/-- The block with the address behind its end; the address wraps. -/
def fixEndOfHobList (base : Nat) (tdHob : Bytes) : Bytes :=
  tdHob.take 48 ++ leBytes 8 (base + tdHob.length + 8) ++ tdHob.drop 56

def tdHobMessage (tdvf : Tdvf) (memorySize : UInt64) :
    Except String Bytes := do
  let acceptor ← MemoryAcceptor.new 0 memorySize.toNat
  let (accepted, base) ←
    (tdvf.sections.map CheckedSection.toTdvfSection).foldlM acceptSection
      (acceptor, 0x809000)
  match accepted.ranges.getLast? with
  | none => .error "MemoryAcceptor has no ranges"
  | some last =>
      let tail ← lastHobs memorySize.toNat last
      return fixEndOfHobList base
        (phitHob ++ accepted.ranges.dropLast.flatMap rangeHob ++ tail)

/-- The variable store the image is shipped with. -/
def cfvMessage (tdvf : Tdvf) : Except String Bytes :=
  match tdvf.sections.find? (·.secType = tdvfSectionTdCfv) with
  | none => .error "CFV section not found in firmware"
  | some entry =>
      if tdvf.fw.length <
          entry.dataOffset.toNat + entry.rawDataSize.toNat then
        .error "CFV section extends beyond firmware"
      else
        .ok
          (slice tdvf.fw entry.dataOffset.toNat entry.rawDataSize.toNat)

/-! ## The register -/

section

variable (sha384 : Bytes → Block 48)

def measureEfiVariable
    (vendorGuid varName : String) (varData : Option Bytes) :
    Except String (Block 48) := do
  return sha384 (← efiVariableMessage vendorGuid varName varData)

def measureTdHob (tdvf : Tdvf) (memorySize : UInt64) :
    Except String (Block 48) := do
  return sha384 (← tdHobMessage tdvf memorySize)

def measureCfv (tdvf : Tdvf) : Except String (Block 48) := do
  return sha384 (← cfvMessage tdvf)

/-- The variables of unenrolled Secure Boot. -/
def secureBootVariables : List (String × String) :=
  [("8BE4DF61-93CA-11D2-AA0D-00E098032B8C", "SecureBoot"),
    ("8BE4DF61-93CA-11D2-AA0D-00E098032B8C", "PK"),
    ("8BE4DF61-93CA-11D2-AA0D-00E098032B8C", "KEK"),
    ("D719B2CB-3D3A-4596-A3BC-DAD00E67656F", "db"),
    ("D719B2CB-3D3A-4596-A3BC-DAD00E67656F", "dbx")]

def separatorDigest : Block 48 :=
  sha384 [0x00, 0x00, 0x00, 0x00]

/-- The five variables and the separator. -/
def secureBootDigests : Except String (List Bytes) := do
  let measured ←
    secureBootVariables.mapM fun named =>
      measureEfiVariable sha384 named.1 named.2 none
  return measured.map (·.bytes) ++ [(separatorDigest sha384).bytes]

/-- RTMR[0] and the number of its events. -/
def rtmr0
    (tdvf : Tdvf) (memorySize : UInt64) (acpi : Option AcpiHashes)
    (bootVars : Option BootVars) : Except String (Block 48 × Nat) := do
  let tdHobHash ← measureTdHob sha384 tdvf memorySize
  let cfvHash ← measureCfv sha384 tdvf
  let secureBoot ← secureBootDigests sha384
  let acpiLog :=
    match acpi with
    | some acpi => [acpi.loaderHash, acpi.rsdpHash, acpi.tablesHash]
    | none => []
  let bootLog :=
    match bootVars with
    | some bootVars =>
        bootVars.entries.map fun entry => (sha384 entry).bytes
    | none => []
  let rtmr0Log :=
    [tdHobHash.bytes, cfvHash.bytes] ++ secureBoot ++ acpiLog ++ bootLog
  return (measureLog sha384 rtmr0Log, rtmr0Log.length)

end

end Confos.Tdx.Rtmr0
