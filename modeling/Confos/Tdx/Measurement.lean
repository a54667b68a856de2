import Confos.Library.HashChains
import Confos.Library.Text
import Confos.Tdx.Authenticode
import Confos.Tdx.EfiVariables
import Confos.Tdx.Esp
import Confos.Tdx.MeasurePanics
import Confos.Tdx.UkiBinding

/-!
# The measurement of a boot

A verifier compares the registers of a running guest with the ones predicted
from the files it was built from.  The firmware is hashed once; RTMR[1] and
RTMR[2] end a log of events, which depends on whether the firmware loads a UKI
from a disk or a kernel on its own.  The logs of the two kinds have nothing in
common from the first event on, so the registers tell the kind as well as the
measured files.
-/

namespace Confos.Tdx.Measurement

open Confos.Library.ByteStrings
open Confos.Library.Checks
open Confos.Library.Fallible
open Confos.Library.HashChains
open Confos.Library.Text (splitOn_of_splitTurns)
open Confos.Tdx.Authenticode
open Confos.Tdx.EfiVariables
open Confos.Tdx.Esp
open Confos.Tdx.Firmware
open Confos.Tdx.Gpt
open Confos.Tdx.MeasurePanics
open Confos.Tdx.Mrtd
open Confos.Tdx.Pe
open Confos.Tdx.Rtmr
open Confos.Tdx.UkiBinding

/-! ## The registers -/

/-- Replace the message of a refusal by the context it is given. -/
def inContext {α : Type} (context : String) (result : Checked α) : Checked α :=
  result.mapError fun
    | .refused _ => .refused context
    | .panicked => .panicked

def callingApplication : Bytes :=
  utf8Bytes "Calling EFI Application from Boot Option"

def separator : Bytes := [0x00, 0x00, 0x00, 0x00]

def exitInvocation : Bytes :=
  utf8Bytes "Exit Boot Services Invocation"

def exitReturned : Bytes :=
  utf8Bytes "Exit Boot Services Returned with Success"

/-- The command line as the firmware keeps it: UTF-16 and a terminator. -/
def loadOptions (cmdline : String) : Bytes :=
  unitBytes (cmdline.toList.flatMap encodeUtf16) ++ [0x00, 0x00]

section

variable {Directory : Type} (fat : FatLibrary Directory)
variable (sha384 : Bytes → Block 48)

def computeRtmr1DirectKernel (kernel : Bytes) : Checked (Block 48) := do
  let kernelAuthHash ←
    inContext "Authenticode hash of direct-boot kernel PE"
      (authenticodeSha384 sha384 kernel)
  return measureLog sha384
    [kernelAuthHash.bytes, (sha384 callingApplication).bytes,
      (sha384 separator).bytes, (sha384 exitInvocation).bytes,
      (sha384 exitReturned).bytes]

def computeRtmr2DirectKernel (cmdline : String) : Block 48 :=
  measureLog sha384 [(sha384 (loadOptions cmdline)).bytes]

/-- The digests of what the firmware measures on a disk, if there is one. -/
def diskDigests : Option Bytes → Checked (List Bytes)
  | none => .ok []
  | some disk => do
      let gptEventHash ← ofResult (computeGptEventHash sha384 disk)
      let bootloader ←
        inContext
          s!"extracting bootloader {fallbackBootloaderPath} from disk image for RTMR[1] computation"
          (readEspFile fat disk fallbackBootloaderPath)
      let bootloaderAuthHash ←
        inContext "Authenticode hash of systemd-boot PE"
          (authenticodeSha384 sha384 bootloader)
      return [gptEventHash, bootloaderAuthHash.bytes]

def computeRtmr1Uki (ukiData : Bytes) (diskImage : Option Bytes) :
    Checked (Block 48) := do
  let fromDisk ← diskDigests fat sha384 diskImage
  let ukiAuthHash ←
    inContext "Authenticode hash of UKI PE" (authenticodeSha384 sha384 ukiData)
  return measureLog sha384
    ([(sha384 callingApplication).bytes, (sha384 separator).bytes] ++ fromDisk ++
      [ukiAuthHash.bytes, (sha384 exitInvocation).bytes,
        (sha384 exitReturned).bytes])

/-! ## The bundle -/

/-- The registers that do not depend on the size of the guest, as text. -/
structure UkiMeasurement where
  mrtd : String
  rtmr1 : String
  rtmr2 : String
deriving DecidableEq

/-- `measure_uki_topology_invariant`, if the firmware's table is walked in so
many turns. -/
def measureUkiTopologyInvariant
    (turns : Nat) (firmware uki : Bytes) (diskImage : Option Bytes) :
    Option (Checked UkiMeasurement) :=
  (parse turns firmware).map fun parsed => do
    let tdvf ← ofResult parsed
    let mrtd ← checkedMrtd sha384 tdvf
    let sections ← ofResult (Pe.parseSections uki)
    let rtmr1 ← computeRtmr1Uki fat sha384 uki diskImage
    let (rtmr2, _) ← ofResult (computeRtmr2Uki sha384 sections)
    return {
      mrtd := hexEncode mrtd.bytes
      rtmr1 := hexEncode rtmr1.bytes
      rtmr2 := hexEncode rtmr2.bytes }

/-! ## Boots -/

/-- What is booted: a UKI, mostly from a disk, or a kernel with its options. -/
inductive Boot where
  | uki (data : Bytes) (diskImage : Option Bytes)
  | directKernel (kernel : Bytes) (cmdline : String)

/-- RTMR[1] and RTMR[2] as they are computed for the mode of the boot. -/
def Boot.registers : Boot → Checked (Block 48 × Block 48)
  | .uki data diskImage => do
      let sections ← ofResult (Pe.parseSections data)
      let rtmr1 ← computeRtmr1Uki fat sha384 data diskImage
      let (rtmr2, _) ← ofResult (computeRtmr2Uki sha384 sections)
      return (rtmr1, rtmr2)
  | .directKernel kernel cmdline => do
      let rtmr1 ← computeRtmr1DirectKernel sha384 kernel
      return (rtmr1, computeRtmr2DirectKernel sha384 cmdline)

end

/-! ## What is hashed -/

/-- The messages of a UKI boot, with those of its disk in between. -/
def ukiMessages (fromDisk : List Bytes) (image : Bytes) : List Bytes :=
  [callingApplication, separator] ++ fromDisk ++
    [image, exitInvocation, exitReturned]

/-- The messages of a direct boot, in which the image comes first. -/
def kernelMessages (image : Bytes) : List Bytes :=
  [image, callingApplication, separator, exitInvocation, exitReturned]

section

variable {Directory : Type} (fat : FatLibrary Directory)
variable (sha384 : Bytes → Block 48)

def diskMessages : Option Bytes → Checked (List Bytes)
  | none => .ok []
  | some disk => do
      let event ← ofResult (gptEvent disk)
      let bootloader ← readEspFile fat disk fallbackBootloaderPath
      let loaderMessage ← authenticodeMessage bootloader
      return [event, loaderMessage]

/-- The messages behind the two registers of a boot. -/
def Boot.events : Boot → Checked (List Bytes × List Bytes)
  | .uki data diskImage => do
      let sections ← ofResult (Pe.parseSections data)
      let fromDisk ← diskMessages fat diskImage
      let image ← authenticodeMessage data
      return (ukiMessages fromDisk image, eventMessages sections)
  | .directKernel kernel cmdline => do
      let image ← authenticodeMessage kernel
      return (kernelMessages image, [loadOptions cmdline])

/-- Everything hashed on the way to one register. -/
def hashedFor (events : List Bytes) : List Bytes :=
  logMessages sha384 extendMessage (Block.zero 48) events

/-- Everything hashed on the way to the registers of a boot. -/
def Boot.hashed (boot : Boot) : List Bytes :=
  match boot.events fat with
  | .ok (first, second) => hashedFor sha384 first ++ hashedFor sha384 second
  | .error _ => []

variable {fat sha384}

theorem inContext_eq_ok_iff
    {α : Type} {context : String} {result : Checked α} {value : α} :
    inContext context result = .ok value ↔ result = .ok value := by
  cases result with
  | ok other => rfl
  | error failure =>
      constructor
      · intro impossible
        cases impossible
      · intro impossible
        cases impossible

theorem ofResult_eq_ok_iff
    {α : Type} {result : Except String α} {value : α} :
    ofResult result = .ok value ↔ result = .ok value := by
  cases result with
  | ok other =>
      constructor
      · intro same
        cases same
        rfl
      · intro same
        cases same
        rfl
  | error problem =>
      constructor
      · intro impossible
        cases impossible
      · intro impossible
        cases impossible

theorem authenticodeSha384_eq_ok_iff
    {data : Bytes} {digest : Block 48} :
    authenticodeSha384 sha384 data = .ok digest ↔
      ∃ message,
        authenticodeMessage data = .ok message ∧ digest = sha384 message := by
  constructor
  · intro computed
    rcases bind_eq_ok.1 computed with ⟨message, hashed, returned⟩
    cases returned
    exact ⟨message, hashed, rfl⟩
  · rintro ⟨message, hashed, rfl⟩
    exact bind_eq_ok.2 ⟨message, hashed, rfl⟩

theorem diskMessages_some_eq_ok_iff
    {disk : Bytes} {messages : List Bytes} :
    diskMessages fat (some disk) = .ok messages ↔
      ∃ event bootloader loaderMessage,
        gptEvent disk = .ok event ∧
          readEspFile fat disk fallbackBootloaderPath = .ok bootloader ∧
            authenticodeMessage bootloader = .ok loaderMessage ∧
              messages = [event, loaderMessage] := by
  constructor
  · intro measured
    rcases bind_eq_ok.1 measured with ⟨event, hashed, rest⟩
    rcases bind_eq_ok.1 rest with ⟨bootloader, found, last⟩
    rcases bind_eq_ok.1 last with ⟨loaderMessage, covered, returned⟩
    cases returned
    exact
      ⟨event, bootloader, loaderMessage, ofResult_eq_ok_iff.1 hashed, found,
        covered, rfl⟩
  · rintro ⟨event, bootloader, loaderMessage, hashed, found, covered, rfl⟩
    refine bind_eq_ok.2 ⟨event, ofResult_eq_ok_iff.2 hashed, ?_⟩
    refine bind_eq_ok.2 ⟨bootloader, found, ?_⟩
    exact bind_eq_ok.2 ⟨loaderMessage, covered, rfl⟩

/-- The digests of a disk are those of its messages. -/
theorem diskDigests_eq_ok_iff
    {diskImage : Option Bytes} {digests : List Bytes} :
    diskDigests fat sha384 diskImage = .ok digests ↔
      ∃ messages,
        diskMessages fat diskImage = .ok messages ∧
          digests = messages.map fun message => (sha384 message).bytes := by
  cases diskImage with
  | none =>
      constructor
      · intro computed
        cases computed
        exact ⟨[], rfl, rfl⟩
      · rintro ⟨messages, measured, rfl⟩
        cases measured
        rfl
  | some disk =>
      constructor
      · intro computed
        rcases bind_eq_ok.1 computed with ⟨eventHash, hashedEvent, rest⟩
        rcases bind_eq_ok.1 rest with ⟨bootloader, found, last⟩
        rcases bind_eq_ok.1 last with ⟨loaderHash, hashedLoader, returned⟩
        cases returned
        rcases bind_eq_ok.1 (ofResult_eq_ok_iff.1 hashedEvent) with
          ⟨event, measured, same⟩
        cases same
        rcases
          authenticodeSha384_eq_ok_iff.1
            (inContext_eq_ok_iff.1 hashedLoader) with
          ⟨loaderMessage, covered, rfl⟩
        exact
          ⟨[event, loaderMessage],
            diskMessages_some_eq_ok_iff.2
              ⟨event, bootloader, loaderMessage, measured,
                inContext_eq_ok_iff.1 found, covered, rfl⟩,
            rfl⟩
      · rintro ⟨messages, measured, rfl⟩
        rcases diskMessages_some_eq_ok_iff.1 measured with
          ⟨event, bootloader, loaderMessage, hashed, found, covered, rfl⟩
        refine
          bind_eq_ok.2
            ⟨(sha384 event).bytes,
              ofResult_eq_ok_iff.2 (bind_eq_ok.2 ⟨event, hashed, rfl⟩), ?_⟩
        refine bind_eq_ok.2 ⟨bootloader, inContext_eq_ok_iff.2 found, ?_⟩
        refine
          bind_eq_ok.2
            ⟨sha384 loaderMessage,
              inContext_eq_ok_iff.2
                (authenticodeSha384_eq_ok_iff.2
                  ⟨loaderMessage, covered, rfl⟩),
              rfl⟩

theorem computeRtmr1Uki_eq_ok
    {data : Bytes} {diskImage : Option Bytes} {rtmr1 : Block 48}
    (computed : computeRtmr1Uki fat sha384 data diskImage = .ok rtmr1) :
    ∃ fromDisk image,
      diskMessages fat diskImage = .ok fromDisk ∧
        authenticodeMessage data = .ok image ∧
          rtmr1 =
            register sha384 extendMessage (Block.zero 48)
              (ukiMessages fromDisk image) := by
  rcases bind_eq_ok.1 computed with ⟨digests, ofDisk, rest⟩
  rcases bind_eq_ok.1 rest with ⟨imageHash, hashedImage, returned⟩
  cases returned
  rcases authenticodeSha384_eq_ok_iff.1 (inContext_eq_ok_iff.1 hashedImage) with
    ⟨image, covered, rfl⟩
  rcases diskDigests_eq_ok_iff.1 ofDisk with ⟨fromDisk, found, rfl⟩
  refine ⟨fromDisk, image, found, covered, ?_⟩
  rw [← measureLog_map, ukiMessages, List.map_append, List.map_append]
  rfl

/-- The registers of a boot end the logs of its messages. -/
theorem Boot.registers_eq_ok
    {boot : Boot} {rtmr1 rtmr2 : Block 48}
    (computed : boot.registers fat sha384 = .ok (rtmr1, rtmr2)) :
    ∃ events,
      boot.events fat = .ok events ∧
        rtmr1 = register sha384 extendMessage (Block.zero 48) events.1 ∧
          rtmr2 =
            register sha384 extendMessage (Block.zero 48) events.2 := by
  cases boot with
  | uki data diskImage =>
      rcases bind_eq_ok.1 computed with ⟨sections, parsed, rest⟩
      rcases bind_eq_ok.1 rest with ⟨first, one, last⟩
      rcases bind_eq_ok.1 last with ⟨⟨second, count⟩, two, returned⟩
      cases returned
      rcases computeRtmr1Uki_eq_ok one with
        ⟨fromDisk, image, found, covered, rfl⟩
      refine
        ⟨(ukiMessages fromDisk image, eventMessages sections), ?_, rfl,
          computeRtmr2Uki_eq_ok (ofResult_eq_ok_iff.1 two)⟩
      rw [Boot.events, parsed, found]
      change (authenticodeMessage data >>= _) = _
      rw [covered]
      rfl
  | directKernel kernel cmdline =>
      rcases bind_eq_ok.1 computed with ⟨first, one, returned⟩
      cases returned
      rcases bind_eq_ok.1 one with ⟨imageHash, hashedImage, same⟩
      cases same
      rcases authenticodeSha384_eq_ok_iff.1 (inContext_eq_ok_iff.1 hashedImage) with
        ⟨image, covered, rfl⟩
      refine ⟨(kernelMessages image, [loadOptions cmdline]), ?_, ?_, ?_⟩
      · rw [Boot.events, covered]
        rfl
      · rw [← measureLog_map]
        rfl
      · rw [← measureLog_map]
        rfl

end

/-! ## The partition table -/

/-- The entries that the event of a disk is made of. -/
def measuredEntries (disk : Bytes) : Except String (List Bytes) :=
  collectEntries disk (entriesOffset disk) (entrySize disk) (numEntries disk) 0
    []

/-- Every entry is measured in full. -/
theorem length_of_mem_collectEntries
    {disk : Bytes} {offset size turns index : Nat}
    {before entries : List Bytes}
    (collected :
      collectEntries disk offset size turns index before = .ok entries)
    (full : ∀ entry ∈ before, entry.length = size) :
    ∀ entry ∈ entries, entry.length = size := by
  induction turns generalizing index before with
  | zero =>
      cases collected
      exact full
  | succ turns induction =>
      rw [collectEntries] at collected
      split at collected
      · cases collected
      · split at collected
        · cases collected
          exact full
        · next inside =>
            refine induction collected ?_
            split
            · intro entry member
              rcases List.mem_append.1 member with earlier | added
              · exact full entry earlier
              · cases List.mem_singleton.1 added
                exact
                  length_slice_of_le (not_lt.1 (not_or.1 inside).2)
            · exact full

/-- The event tells the header and the entries. -/
theorem gptEvent_injective
    {left right event : Bytes}
    (leftMeasured : gptEvent left = .ok event)
    (rightMeasured : gptEvent right = .ok event) :
    gptHeader left = gptHeader right ∧
      ∃ entries,
        measuredEntries left = .ok entries ∧
          measuredEntries right = .ok entries := by
  have parts :
      ∀ {disk : Bytes}, gptEvent disk = .ok event →
        (gptHeader disk).length = 92 ∧
          ∃ entries,
            measuredEntries disk = .ok entries ∧
              event =
                gptHeader disk ++
                  (leBytes 8 entries.length ++ entries.flatten) := by
    intro disk measured
    have header := hasHeader_of_gptEvent measured
    refine ⟨length_slice_of_le (le_trans (by decide) header.long), ?_⟩
    rw [header.gptEvent_eq] at measured
    change (measuredEntries disk).map _ = _ at measured
    cases collected : measuredEntries disk with
    | error problem =>
        rw [collected] at measured
        cases measured
    | ok entries =>
        rw [collected] at measured
        cases measured
        exact ⟨entries, rfl, List.append_assoc _ _ _⟩
  rcases parts leftMeasured with
    ⟨leftLength, leftEntries, leftCollected, leftEvent⟩
  rcases parts rightMeasured with
    ⟨rightLength, rightEntries, rightCollected, rightEvent⟩
  rcases
    List.append_inj (leftEvent.symm.trans rightEvent)
      (leftLength.trans rightLength.symm) with
    ⟨sameHeader, rest⟩
  have sameSize : entrySize left = entrySize right := by
    rw [entrySize, entrySize, sameHeader]
  have sameFlat : leftEntries.flatten = rightEntries.flatten :=
    (List.append_inj rest (by rw [length_leBytes, length_leBytes])).2
  have leftFull :=
    length_of_mem_collectEntries leftCollected (List.forall_mem_nil _)
  have rightFull :=
    length_of_mem_collectEntries rightCollected (List.forall_mem_nil _)
  rw [← sameSize] at rightFull
  have leftSizes :
      leftEntries.map List.length =
        List.replicate leftEntries.length (entrySize left) :=
    List.map_eq_replicate_iff.2 leftFull
  have rightSizes :
      rightEntries.map List.length =
        List.replicate rightEntries.length (entrySize left) :=
    List.map_eq_replicate_iff.2 rightFull
  have positive : 0 < entrySize left :=
    lt_of_lt_of_le (by decide) (hasHeader_of_gptEvent leftMeasured).large
  have sameCount : leftEntries.length = rightEntries.length := by
    have lengths := congrArg List.length sameFlat
    rw [List.length_flatten, List.length_flatten, leftSizes, rightSizes,
      List.sum_replicate_nat, List.sum_replicate_nat] at lengths
    exact Nat.eq_of_mul_eq_mul_right positive lengths
  have same : leftEntries = rightEntries := by
    rw [List.eq_iff_flatten_eq, leftSizes, rightSizes, sameCount]
    exact ⟨sameFlat, rfl⟩
  cases same
  exact ⟨sameHeader, leftEntries, leftCollected, rightCollected⟩

/-! ## Small files -/

/-- An image with a kernel, a command line and a checksum. -/
def sampleUki (checksum : Nat) : Bytes :=
  List.replicate 0x3C 0 ++ leBytes 4 0x40 ++ [0x50, 0x45, 0, 0] ++
    (leBytes 2 0 ++ leBytes 2 2 ++ List.replicate 12 0 ++ leBytes 2 152 ++
      leBytes 2 0) ++
    (leBytes 2 0x20b ++ List.replicate 58 0 ++ leBytes 4 320 ++
      leBytes 4 checksum ++ List.replicate 84 0) ++
    (utf8Bytes ".linux" ++ [0, 0] ++ leBytes 4 1 ++ leBytes 4 0 ++
      leBytes 4 1 ++ leBytes 4 320 ++ List.replicate 16 0) ++
    (utf8Bytes ".cmdline" ++ leBytes 4 2 ++ leBytes 4 0 ++ leBytes 4 2 ++
      leBytes 4 321 ++ List.replicate 16 0) ++
    [0x4B] ++ utf8Bytes "ro"

/-- A FAT library that finds a boot loader everywhere. -/
def loaderLibrary : FatLibrary Unit where
  rootDir _ := .ok ()
  openDir _ _ := .ok ()
  readFile _ _ := .ok (sampleUki 0)

/-- A disk with a system partition and an entry that is not used. -/
def bootDisk (filler : UInt8) : Bytes :=
  sampleDisk 2
    [espEntry 1 1, List.replicate 16 0 ++ List.replicate 112 filler]

theorem splitOn_fallbackBootloaderPath :
    fallbackBootloaderPath.splitOn "/" = ["EFI", "BOOT", "BOOTX64.EFI"] :=
  splitOn_of_splitTurns 30 (by decide) (by decide +kernel)

theorem readFatFile_loaderLibrary (volume : Bytes) :
    readFatFile loaderLibrary volume fallbackBootloaderPath =
      .ok (sampleUki 0) := by
  have components :
      (fallbackBootloaderPath.splitOn "/").filter (· ≠ "") =
        ["EFI", "BOOT", "BOOTX64.EFI"] := by
    rw [splitOn_fallbackBootloaderPath]
    decide
  rw [readFatFile]
  simp only [components]
  rfl

theorem readEspFile_bootDisk :
    ∀ filler ∈ [0, 1],
      readEspFile loaderLibrary (bootDisk filler) fallbackBootloaderPath =
        .ok (sampleUki 0) := by
  have long : ∀ filler ∈ [0, 1], 1024 ≤ (bootDisk filler).length := by
    decide +kernel
  have signature :
      ∀ filler ∈ [0, 1],
        slice (gptHeader (bootDisk filler)) 0 8 = utf8Bytes "EFI PART" := by
    decide +kernel
  have large : ∀ filler ∈ [0, 1], 128 ≤ entrySize (bootDisk filler) := by
    decide +kernel
  have found :
      ∀ filler ∈ [0, 1],
        (mul64 (partitionEntryLba (bootDisk filler)) 512 >>= fun entriesOff =>
            findEsp (bootDisk filler) entriesOff (entrySize (bootDisk filler))
              (numEntries (bootDisk filler)) 0) =
          .ok (some (1, 1)) := by
    decide +kernel
  have inside :
      ∀ filler ∈ [0, 1], (espSlice (bootDisk filler) 1 1).isOk = true := by
    decide +kernel
  intro filler known
  rcases bind_eq_ok.1 (found filler known) with ⟨entriesOff, offset, first⟩
  rcases exists_eq_ok_of_isOk (inside filler known) with ⟨volume, cutOut⟩
  exact
    readEspFile_eq_ok
      ⟨long filler known, signature filler known, large filler known⟩ offset
      first cutOut (readFatFile_loaderLibrary volume)

/-- The messages of these disks. -/
def bootDiskMessages : List Bytes :=
  [(gptEvent (bootDisk 0)).toOption.getD [],
    (authenticodeMessage (sampleUki 0)).toOption.getD []]

theorem bootDisk_parts :
    (∀ filler ∈ [0, 1],
        gptEvent (bootDisk filler) =
          .ok ((gptEvent (bootDisk 0)).toOption.getD [])) ∧
      authenticodeMessage (sampleUki 0) =
        .ok ((authenticodeMessage (sampleUki 0)).toOption.getD []) := by
  decide +kernel

theorem diskMessages_bootDisk {filler : UInt8} (known : filler ∈ [0, 1]) :
    diskMessages loaderLibrary (some (bootDisk filler)) =
      .ok bootDiskMessages :=
  diskMessages_some_eq_ok_iff.2
    ⟨_, _, _, bootDisk_parts.1 filler known, readEspFile_bootDisk filler known,
      bootDisk_parts.2, rfl⟩

theorem diskDigests_bootDisk
    (sha384 : Bytes → Block 48) {filler : UInt8} (known : filler ∈ [0, 1]) :
    diskDigests loaderLibrary sha384 (some (bootDisk filler)) =
      .ok (bootDiskMessages.map fun message => (sha384 message).bytes) :=
  diskDigests_eq_ok_iff.2 ⟨_, diskMessages_bootDisk known, rfl⟩

/-! ## What the registers tell -/

/-- Two images of which Authenticode covers the same bytes. -/
def SameImage (left right : Bytes) : Prop :=
  ∃ message,
    authenticodeMessage left = .ok message ∧
      authenticodeMessage right = .ok message

/-- Two images with the same measured sections. -/
def SameSections (left right : Bytes) : Prop :=
  ∃ leftSections rightSections,
    Pe.parseSections left = .ok leftSections ∧
      Pe.parseSections right = .ok rightSections ∧
        ∀ name ∈ ukiMeasurementOrder,
          sectionMap leftSections name = sectionMap rightSections name

section

variable {Directory : Type} (fat : FatLibrary Directory)

/-- Two disks with the same partition table and the same boot loader. -/
structure SameDisk (left right : Bytes) : Prop where
  header : gptHeader left = gptHeader right
  entries :
    ∃ entries,
      measuredEntries left = .ok entries ∧ measuredEntries right = .ok entries
  bootloader :
    ∃ leftLoader rightLoader,
      readEspFile fat left fallbackBootloaderPath = .ok leftLoader ∧
        readEspFile fat right fallbackBootloaderPath = .ok rightLoader ∧
          SameImage leftLoader rightLoader

/-- Two boots of one kind that run the same measured files. -/
def SameBoot : Boot → Boot → Prop
  | .uki left leftDisk, .uki right rightDisk =>
      SameImage left right ∧ SameSections left right ∧
        Option.Rel (SameDisk fat) leftDisk rightDisk
  | .directKernel left leftCmdline, .directKernel right rightCmdline =>
      SameImage left right ∧ leftCmdline = rightCmdline
  | _, _ => False

variable {fat}

/-- The messages of a disk tell that there is one, and which. -/
theorem sameDisk_of_diskMessages
    {left right : Option Bytes} {messages : List Bytes}
    (leftMeasured : diskMessages fat left = .ok messages)
    (rightMeasured : diskMessages fat right = .ok messages) :
    Option.Rel (SameDisk fat) left right := by
  cases left with
  | none =>
      cases leftMeasured
      cases right with
      | none => exact Option.Rel.none
      | some disk =>
          rcases diskMessages_some_eq_ok_iff.1 rightMeasured with
            ⟨event, bootloader, loaderMessage, -, -, -, impossible⟩
          cases impossible
  | some disk =>
      rcases diskMessages_some_eq_ok_iff.1 leftMeasured with
        ⟨event, leftLoader, loaderMessage, leftEvent, leftFound, leftCovered,
          rfl⟩
      cases right with
      | none => cases rightMeasured
      | some other =>
          rcases diskMessages_some_eq_ok_iff.1 rightMeasured with
            ⟨otherEvent, rightLoader, otherMessage, rightEvent, rightFound,
              rightCovered, same⟩
          cases same
          rcases gptEvent_injective leftEvent rightEvent with
            ⟨header, entries⟩
          exact
            Option.Rel.some
              { header
                entries
                bootloader :=
                  ⟨leftLoader, rightLoader, leftFound, rightFound,
                    loaderMessage, leftCovered, rightCovered⟩ }

theorem ukiMessages_injective
    {leftDisk rightDisk : List Bytes} {left right : Bytes}
    (equal : ukiMessages leftDisk left = ukiMessages rightDisk right) :
    leftDisk = rightDisk ∧ left = right := by
  rw [ukiMessages, ukiMessages] at equal
  rcases List.append_inj' equal rfl with ⟨fronts, backs⟩
  exact ⟨List.append_cancel_left fronts, (List.cons.inj backs).1⟩

/-- The second message of a direct boot is the first one of the other. -/
theorem ukiMessages_ne_kernelMessages
    (fromDisk : List Bytes) (image kernel : Bytes) :
    ukiMessages fromDisk image ≠ kernelMessages kernel := by
  intro equal
  have second : separator = callingApplication :=
    (List.cons.inj (List.cons.inj equal).2).1
  exact absurd (congrArg List.length second) (by decide)

theorem loadOptions_injective : Function.Injective loadOptions := by
  intro left right equal
  have units := unitBytes_injective (List.append_cancel_right equal)
  exact String.toList_injective (flatMap_encodeUtf16_injective units)

/-- The messages of a section list tell its measured sections. -/
theorem sectionMap_eq_of_eventMessages
    {left right : List (String × Bytes)}
    (equal : eventMessages left = eventMessages right) :
    ∀ name ∈ ukiMeasurementOrder,
      sectionMap left name = sectionMap right name :=
  sectionMap_eq_of_messages nodup_ukiMeasurementOrder
    (fun _ member _ ordered =>
      ne_nameMessage_of_mem_finalMessages member ordered)
    (fun _ member _ ordered =>
      ne_nameMessage_of_mem_finalMessages member ordered)
    equal

theorem Boot.events_uki_eq_ok
    {data : Bytes} {diskImage : Option Bytes}
    {events : List Bytes × List Bytes}
    (hashed : (Boot.uki data diskImage).events fat = .ok events) :
    ∃ sections fromDisk image,
      Pe.parseSections data = .ok sections ∧
        diskMessages fat diskImage = .ok fromDisk ∧
          authenticodeMessage data = .ok image ∧
            events = (ukiMessages fromDisk image, eventMessages sections) := by
  rcases bind_eq_ok.1 hashed with ⟨sections, parsed, rest⟩
  rcases bind_eq_ok.1 rest with ⟨fromDisk, measured, last⟩
  rcases bind_eq_ok.1 last with ⟨image, covered, returned⟩
  cases returned
  exact
    ⟨sections, fromDisk, image, ofResult_eq_ok_iff.1 parsed, measured,
      covered, rfl⟩

theorem Boot.events_directKernel_eq_ok
    {kernel : Bytes} {cmdline : String} {events : List Bytes × List Bytes}
    (hashed : (Boot.directKernel kernel cmdline).events fat = .ok events) :
    ∃ image,
      authenticodeMessage kernel = .ok image ∧
        events = (kernelMessages image, [loadOptions cmdline]) := by
  rcases bind_eq_ok.1 hashed with ⟨image, covered, returned⟩
  cases returned
  exact ⟨image, covered, rfl⟩

/-- The messages tell the boot. -/
theorem sameBoot_of_events
    {left right : Boot} {events : List Bytes × List Bytes}
    (leftHashed : left.events fat = .ok events)
    (rightHashed : right.events fat = .ok events) :
    SameBoot fat left right := by
  cases left with
  | uki data diskImage =>
      rcases Boot.events_uki_eq_ok leftHashed with
        ⟨leftSections, leftDisk, leftImage, leftParsed, leftMeasured,
          leftCovered, rfl⟩
      cases right with
      | uki other otherDisk =>
          rcases Boot.events_uki_eq_ok rightHashed with
            ⟨rightSections, rightDisk, rightImage, rightParsed, rightMeasured,
              rightCovered, same⟩
          rcases Prod.mk.inj same with ⟨first, second⟩
          rcases ukiMessages_injective first with ⟨rfl, rfl⟩
          exact
            ⟨⟨leftImage, leftCovered, rightCovered⟩,
              ⟨leftSections, rightSections, leftParsed, rightParsed,
                sectionMap_eq_of_eventMessages second⟩,
              sameDisk_of_diskMessages leftMeasured rightMeasured⟩
      | directKernel kernel cmdline =>
          rcases Boot.events_directKernel_eq_ok rightHashed with
            ⟨image, -, same⟩
          exact
            ukiMessages_ne_kernelMessages _ _ _ (Prod.mk.inj same).1
  | directKernel kernel cmdline =>
      rcases Boot.events_directKernel_eq_ok leftHashed with
        ⟨leftImage, leftCovered, rfl⟩
      cases right with
      | uki other otherDisk =>
          rcases Boot.events_uki_eq_ok rightHashed with
            ⟨sections, fromDisk, image, -, -, -, same⟩
          exact
            ukiMessages_ne_kernelMessages _ _ _ (Prod.mk.inj same).1.symm
      | directKernel other otherCmdline =>
          rcases Boot.events_directKernel_eq_ok rightHashed with
            ⟨rightImage, rightCovered, same⟩
          rcases Prod.mk.inj same with ⟨first, second⟩
          cases (List.cons.inj first).1
          exact
            ⟨⟨leftImage, leftCovered, rightCovered⟩,
              loadOptions_injective (List.cons.inj second).1⟩

variable {sha384 : Bytes → Block 48}

/-- Equal registers end logs of equal messages. -/
theorem events_eq_of_registers
    {left right : Boot} {rtmr1 rtmr2 : Block 48}
    (leftComputed : left.registers fat sha384 = .ok (rtmr1, rtmr2))
    (rightComputed : right.registers fat sha384 = .ok (rtmr1, rtmr2))
    (apart :
      TellsApart sha384 (Block.zero 48)
        {message |
          message ∈ left.hashed fat sha384 ∨
            message ∈ right.hashed fat sha384}) :
    ∃ events, left.events fat = .ok events ∧ right.events fat = .ok events := by
  rcases Boot.registers_eq_ok leftComputed with
    ⟨leftEvents, leftHashed, leftFirst, leftSecond⟩
  rcases Boot.registers_eq_ok rightComputed with
    ⟨rightEvents, rightHashed, rightFirst, rightSecond⟩
  have onLeft :
      ∀ message ∈
          hashedFor sha384 leftEvents.1 ++ hashedFor sha384 leftEvents.2,
        message ∈ left.hashed fat sha384 ∨
          message ∈ right.hashed fat sha384 := by
    intro message member
    rw [Boot.hashed, leftHashed]
    exact Or.inl member
  have onRight :
      ∀ message ∈
          hashedFor sha384 rightEvents.1 ++ hashedFor sha384 rightEvents.2,
        message ∈ left.hashed fat sha384 ∨
          message ∈ right.hashed fat sha384 := by
    intro message member
    refine Or.inr ?_
    rw [Boot.hashed, rightHashed]
    exact member
  have first : leftEvents.1 = rightEvents.1 :=
    apart.register_injOn extendMessage_injective
      (fun message member => onLeft message (List.mem_append_left _ member))
      (fun message member => onRight message (List.mem_append_left _ member))
      (leftFirst.symm.trans rightFirst)
  have second : leftEvents.2 = rightEvents.2 :=
    apart.register_injOn extendMessage_injective
      (fun message member => onLeft message (List.mem_append_right _ member))
      (fun message member => onRight message (List.mem_append_right _ member))
      (leftSecond.symm.trans rightSecond)
  rw [← Prod.ext first second] at rightHashed
  exact ⟨leftEvents, leftHashed, rightHashed⟩

/--
RTMR[1] and RTMR[2] tell how a guest was booted and from which files, unless
the hash collides on the way to them or returns to zero.
-/
theorem sameBoot_of_registers
    {left right : Boot} {rtmr1 rtmr2 : Block 48}
    (leftComputed : left.registers fat sha384 = .ok (rtmr1, rtmr2))
    (rightComputed : right.registers fat sha384 = .ok (rtmr1, rtmr2))
    (apart :
      TellsApart sha384 (Block.zero 48)
        {message |
          message ∈ left.hashed fat sha384 ∨
            message ∈ right.hashed fat sha384}) :
    SameBoot fat left right := by
  rcases events_eq_of_registers leftComputed rightComputed apart with
    ⟨events, leftHashed, rightHashed⟩
  exact sameBoot_of_events leftHashed rightHashed

/-- Two kernels that differ in their checksum have the same registers. -/
theorem sameBoot_of_registers_checksum :
    ∃ rtmr1 rtmr2,
      (Boot.directKernel (sampleUki 0) "ro").registers loaderLibrary
            countBytes =
          .ok (rtmr1, rtmr2) ∧
        (Boot.directKernel (sampleUki 1) "ro").registers loaderLibrary
              countBytes =
            .ok (rtmr1, rtmr2) ∧
          SameBoot loaderLibrary (.directKernel (sampleUki 0) "ro")
            (.directKernel (sampleUki 1) "ro") := by
  have same :
      (Boot.directKernel (sampleUki 1) "ro").registers loaderLibrary
          countBytes =
        (Boot.directKernel (sampleUki 0) "ro").registers loaderLibrary
          countBytes := by
    decide +kernel
  have computes :
      ((Boot.directKernel (sampleUki 0) "ro").registers loaderLibrary
        countBytes).isOk = true := by
    decide +kernel
  rcases exists_eq_ok_of_isOk computes with ⟨⟨rtmr1, rtmr2⟩, computed⟩
  rw [computed] at same
  refine ⟨rtmr1, rtmr2, computed, same, ?_⟩
  refine sameBoot_of_registers computed same (tellsApart_of_forall ?_)
  decide +kernel

/-! ## The bundle -/

/-- Two firmware images that are laid out in memory by the same operations. -/
def SameFirmware (leftTurns rightTurns : Nat) (left right : Bytes) : Prop :=
  ∃ leftTdvf rightTdvf,
    parse leftTurns left = some (.ok leftTdvf) ∧
      parse rightTurns right = some (.ok rightTdvf) ∧
        operations leftTdvf = operations rightTdvf

/-- What the measurement of a firmware image hashes. -/
def firmwareMessages (turns : Nat) (firmware : Bytes) : List Bytes :=
  match parse turns firmware with
  | some (.ok tdvf) => [mrtdMessage tdvf]
  | _ => []

/-- An image that is measured is hashed once, with addresses of 64 bits. -/
theorem checkedMrtd_eq_ok
    {tdvf : Tdvf} (small : tdvf.fw.length < 2 ^ 64)
    {digest : Block 48} (computed : checkedMrtd sha384 tdvf = .ok digest) :
    digest = sha384 (mrtdMessage tdvf) ∧
      ∀ operation ∈ operations tdvf, operation.gpa < 2 ^ 64 := by
  rcases (completes_checkedMrtd sha384 small).of_eq_ok computed with
    ⟨fits, same⟩
  refine ⟨same.symm, fun operation member => ?_⟩
  rcases List.mem_flatMap.1 member with ⟨entry, listed, inSection⟩
  exact
    gpa_lt_of_mem_sectionOperations (fits _ (List.mem_map_of_mem listed))
      inSection

/-- The parts of a bundle are computed from the firmware and from the boot. -/
theorem measureUkiTopologyInvariant_eq_ok
    {turns : Nat} {firmware uki : Bytes} {diskImage : Option Bytes}
    {bundle : UkiMeasurement}
    (measured :
      measureUkiTopologyInvariant fat sha384 turns firmware uki diskImage =
        some (.ok bundle)) :
    ∃ tdvf mrtd rtmr1 rtmr2,
      parse turns firmware = some (.ok tdvf) ∧
        checkedMrtd sha384 tdvf = .ok mrtd ∧
          (Boot.uki uki diskImage).registers fat sha384 =
              .ok (rtmr1, rtmr2) ∧
            bundle =
              { mrtd := hexEncode mrtd.bytes
                rtmr1 := hexEncode rtmr1.bytes
                rtmr2 := hexEncode rtmr2.bytes } := by
  rcases Option.map_eq_some_iff.1 measured with ⟨parsed, walked, computed⟩
  rcases bind_eq_ok.1 computed with ⟨tdvf, accepted, ofFirmware⟩
  rcases bind_eq_ok.1 ofFirmware with ⟨mrtd, hashed, ofUki⟩
  rcases bind_eq_ok.1 ofUki with ⟨sections, read, ofDisk⟩
  rcases bind_eq_ok.1 ofDisk with ⟨rtmr1, one, last⟩
  rcases bind_eq_ok.1 last with ⟨⟨rtmr2, count⟩, two, returned⟩
  cases returned
  cases ofResult_eq_ok_iff.1 accepted
  refine ⟨tdvf, mrtd, rtmr1, rtmr2, walked, hashed, ?_, rfl⟩
  rw [Boot.registers, read]
  change (computeRtmr1Uki fat sha384 uki diskImage >>= _) = _
  rw [one]
  change (ofResult (computeRtmr2Uki sha384 sections) >>= _) = _
  rw [two]
  rfl

/--
Equal bundles come from boots of the same firmware operations, partition table,
boot loader and UKI.
-/
theorem measureUkiTopologyInvariant_binds
    {leftTurns rightTurns : Nat}
    {leftFirmware rightFirmware leftUki rightUki : Bytes}
    {leftDisk rightDisk : Option Bytes} {bundle : UkiMeasurement}
    (leftMeasured :
      measureUkiTopologyInvariant fat sha384 leftTurns leftFirmware leftUki
          leftDisk =
        some (.ok bundle))
    (rightMeasured :
      measureUkiTopologyInvariant fat sha384 rightTurns rightFirmware rightUki
          rightDisk =
        some (.ok bundle))
    (leftSmall : leftFirmware.length < 2 ^ 64)
    (rightSmall : rightFirmware.length < 2 ^ 64)
    (noCollision :
      Set.InjOn sha384
        {message |
          message ∈ firmwareMessages leftTurns leftFirmware ∨
            message ∈ firmwareMessages rightTurns rightFirmware})
    (apart :
      TellsApart sha384 (Block.zero 48)
        {message |
          message ∈ (Boot.uki leftUki leftDisk).hashed fat sha384 ∨
            message ∈ (Boot.uki rightUki rightDisk).hashed fat sha384}) :
    SameFirmware leftTurns rightTurns leftFirmware rightFirmware ∧
      SameBoot fat (.uki leftUki leftDisk) (.uki rightUki rightDisk) := by
  rcases measureUkiTopologyInvariant_eq_ok leftMeasured with
    ⟨leftTdvf, leftMrtd, leftRtmr1, leftRtmr2, leftParsed, leftHashed,
      leftRegisters, leftBundle⟩
  rcases measureUkiTopologyInvariant_eq_ok rightMeasured with
    ⟨rightTdvf, rightMrtd, rightRtmr1, rightRtmr2, rightParsed, rightHashed,
      rightRegisters, rightBundle⟩
  rcases UkiMeasurement.mk.inj (leftBundle.symm.trans rightBundle) with
    ⟨sameMrtd, sameRtmr1, sameRtmr2⟩
  cases Block.ext (hexEncode_injective sameMrtd)
  cases Block.ext (hexEncode_injective sameRtmr1)
  cases Block.ext (hexEncode_injective sameRtmr2)
  rw [← fw_of_parse leftParsed] at leftSmall
  rw [← fw_of_parse rightParsed] at rightSmall
  rcases checkedMrtd_eq_ok leftSmall leftHashed with ⟨leftDigest, leftFits⟩
  rcases checkedMrtd_eq_ok rightSmall rightHashed with
    ⟨rightDigest, rightFits⟩
  have sameMessage : mrtdMessage leftTdvf = mrtdMessage rightTdvf := by
    refine noCollision ?_ ?_ (leftDigest.symm.trans rightDigest)
    · rw [firmwareMessages, leftParsed]
      exact Or.inl List.mem_cons_self
    · rw [firmwareMessages.eq_def rightTurns, rightParsed]
      exact Or.inr List.mem_cons_self
  have sameOperations :=
    (mrtdMessage_injective leftParsed rightParsed leftFits rightFits
      sameMessage).1
  rcases events_eq_of_registers leftRegisters rightRegisters apart with
    ⟨events, leftEvents, rightEvents⟩
  exact
    ⟨⟨leftTdvf, rightTdvf, leftParsed, rightParsed, sameOperations⟩,
      sameBoot_of_events leftEvents rightEvents⟩

end

/-- Everything differs in a place that is not measured. -/
theorem measureUkiTopologyInvariant_binds_unmeasured :
    ∃ bundle,
      measureUkiTopologyInvariant loaderLibrary countBytes 1 (sampleFirmware 0)
            (sampleUki 0) (some (bootDisk 0)) =
          some (.ok bundle) ∧
        measureUkiTopologyInvariant loaderLibrary countBytes 1
              (sampleFirmware 1) (sampleUki 1) (some (bootDisk 1)) =
            some (.ok bundle) ∧
          SameFirmware 1 1 (sampleFirmware 0) (sampleFirmware 1) ∧
            SameBoot loaderLibrary
              (.uki (sampleUki 0) (some (bootDisk 0)))
              (.uki (sampleUki 1) (some (bootDisk 1))) := by
  have same :
      measureUkiTopologyInvariant loaderLibrary countBytes 1 (sampleFirmware 1)
          (sampleUki 1) (some (bootDisk 1)) =
        measureUkiTopologyInvariant loaderLibrary countBytes 1
          (sampleFirmware 0) (sampleUki 0) (some (bootDisk 0)) := by
    rw [measureUkiTopologyInvariant, measureUkiTopologyInvariant,
      computeRtmr1Uki, computeRtmr1Uki, diskDigests_bootDisk _ (by decide),
      diskDigests_bootDisk _ (by decide)]
    decide +kernel
  have computes :
      ((measureUkiTopologyInvariant loaderLibrary countBytes 1
        (sampleFirmware 0) (sampleUki 0) (some (bootDisk 0))).bind
          Except.toOption).isSome = true := by
    rw [measureUkiTopologyInvariant, computeRtmr1Uki,
      diskDigests_bootDisk _ (by decide)]
    decide +kernel
  rcases Option.isSome_iff_exists.1 computes with ⟨bundle, found⟩
  rcases Option.bind_eq_some_iff.1 found with ⟨result, walked, isOk⟩
  cases result with
  | error failure => cases isOk
  | ok other =>
      cases isOk
      rw [walked] at same
      refine ⟨bundle, walked, same, ?_⟩
      refine
        measureUkiTopologyInvariant_binds walked same (by decide +kernel)
          (by decide +kernel) ?_ (tellsApart_of_forall ?_)
      · have one :
            ∀ message ∈
                firmwareMessages 1 (sampleFirmware 0) ++
                  firmwareMessages 1 (sampleFirmware 1),
              message = (firmwareMessages 1 (sampleFirmware 0)).headD [] := by
          decide +kernel
        intro left inLeft right inRight _
        rw [one left (List.mem_append.2 inLeft),
          one right (List.mem_append.2 inRight)]
      · rw [Boot.hashed, Boot.hashed, Boot.events, Boot.events,
          diskMessages_bootDisk (by decide), diskMessages_bootDisk (by decide)]
        decide +kernel

end Confos.Tdx.Measurement
