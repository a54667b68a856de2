import Confos.Tdx.Replay
import Confos.Tdx.Rtmr0

/-!
# RTMR[0] from the event log

What `AcpiHashes` and `BootVars` take from a log of a UKI boot, put behind the
digests the firmware image and the memory size determine, gives the register
that the log replays to.
-/

namespace Confos.Tdx.Rtmr0Replay

open Confos.Library.ByteStrings
open Confos.Library.Fallible
open Confos.Tdx.Ccel
open Confos.Tdx.CcelRecords
open Confos.Tdx.CcelRoundTrip
open Confos.Tdx.Firmware
open Confos.Tdx.Replay
open Confos.Tdx.Rtmr
open Confos.Tdx.Rtmr0

/-! ## The digests of a parsed log -/

theorem length_of_sha384Of
    {digests : List TaggedDigest} {digest : Bytes}
    (found : sha384Of digests = some digest) :
    digest.length = 48 := by
  have member := List.mem_of_getLast? found
  rcases List.mem_filterMap.1 member with ⟨tagged, -, isSha384⟩
  rw [TaggedDigest.sha384?] at isSha384
  split at isSha384
  · rename_i algorithm
    cases isSha384
    rw [tagged.digest.length_eq, algorithm]
    rfl
  · cases isSha384

theorem length_sha384Digest_of_parseCcel
    {log : Bytes} {events : List CcelEvent}
    (parsed : parseCcel log = .ok events)
    {event : CcelEvent} (member : event ∈ events) :
    event.sha384Digest.length = 48 := by
  rcases exists_log_of_parseCcel parsed with ⟨records, -, -, rfl⟩
  rcases List.mem_filterMap.1 member with ⟨record, -, isEvent⟩
  rcases Option.map_eq_some_iff.1 isEvent with ⟨digest, found, rfl⟩
  exact length_of_sha384Of found

/-! ## What the extraction selects -/

/-- The events of RTMR[0]. -/
def rtmr0Events (events : List CcelEvent) : List CcelEvent :=
  events.filter (·.mrIndex = 1)

theorem foldl_acpiStep_rtmr0Events
    (state : Bool × List Bytes) (events : List CcelEvent) :
    events.foldl acpiStep state =
      (rtmr0Events events).foldl acpiStep state := by
  rw [rtmr0Events, List.foldl_filter]
  congr 1
  funext state event
  by_cases selected : event.mrIndex = 1
  · simp [selected]
  · simp [selected, acpiStep]

theorem filterMap_bootVarOf_rtmr0Events (events : List CcelEvent) :
    events.filterMap bootVarOf =
      (rtmr0Events events).filterMap bootVarOf := by
  rw [rtmr0Events, List.filterMap_filter]
  congr 1
  funext event
  by_cases selected : event.mrIndex = 1
  · simp [selected]
  · simp [selected, bootVarOf]

/-- Events that are no separator and no ACPI table leave the state alone. -/
theorem foldl_acpiStep_other
    {events : List CcelEvent}
    (others :
      ∀ event ∈ events,
        event.eventType ≠ 0x00000004 ∧ event.eventType ≠ 0x0000000a)
    (state : Bool × List Bytes) :
    events.foldl acpiStep state = state := by
  induction events with
  | nil => rfl
  | cons event events induction =>
      have kept : acpiStep state event = state := by
        have other := others event List.mem_cons_self
        simp [acpiStep, other.1, other.2]
      rw [List.foldl_cons, kept]
      exact induction fun event member =>
        others event (List.mem_cons_of_mem _ member)

/-- Behind the separator the digests of the ACPI tables are collected. -/
theorem foldl_acpiStep_tables
    {events : List CcelEvent}
    (tables :
      ∀ event ∈ events,
        event.mrIndex = 1 ∧ event.eventType = 0x0000000a)
    (digests : List Bytes) :
    events.foldl acpiStep (true, digests) =
      (true, digests ++ events.map (·.sha384Digest)) := by
  induction events generalizing digests with
  | nil => simp
  | cons event events induction =>
      have collected :
          acpiStep (true, digests) event =
            (true, digests ++ [event.sha384Digest]) := by
        have table := tables event List.mem_cons_self
        simp [acpiStep, table.1, table.2]
      rw [List.foldl_cons, collected,
        induction fun event member =>
          tables event (List.mem_cons_of_mem _ member)]
      simp

theorem filterMap_bootVarOf_other
    {events : List CcelEvent}
    (others : ∀ event ∈ events, event.eventType ≠ 0x80000002) :
    events.filterMap bootVarOf = [] := by
  apply List.filterMap_eq_nil_iff.2
  intro event member
  simp [bootVarOf, others event member]

/-! ## The log of a UKI boot -/

section

variable (sha384 : Bytes → Block 48)

/-- A boot variable whose digest is the one of its value. -/
structure IsBootVariable (event : CcelEvent) (value : Bytes) : Prop where
  eventType_eq : event.eventType = 0x80000002
  parses : ∃ name, parseUefiVariableData event.eventData = some (name, value)
  digest_eq : event.sha384Digest = (sha384 value).bytes

/-- The events of RTMR[0] in the order in which a UKI boot extends it. -/
structure UkiBootEvents (events : List CcelEvent) where
  tdHob : CcelEvent
  cfv : CcelEvent
  secureBoot : List CcelEvent
  separator : CcelEvent
  acpi : List CcelEvent
  boot : List CcelEvent
  values : List Bytes
  rtmr0Events_eq :
    rtmr0Events events =
      [tdHob, cfv] ++ secureBoot ++ [separator] ++ acpi ++ boot
  secureBoot_length : secureBoot.length = 5
  early_types :
    ∀ event ∈ [tdHob, cfv] ++ secureBoot,
      event.eventType ≠ 0x00000004 ∧ event.eventType ≠ 0x0000000a ∧
        event.eventType ≠ 0x80000002
  separator_type : separator.eventType = 0x00000004
  acpi_length : acpi.length = 3
  acpi_types : ∀ event ∈ acpi, event.eventType = 0x0000000a
  boot_nonempty : boot ≠ []
  boot_variables : List.Forall₂ (IsBootVariable sha384) boot values

variable {sha384}

namespace UkiBootEvents

variable {events : List CcelEvent}

theorem mrIndex_eq
    (booted : UkiBootEvents sha384 events) {event : CcelEvent}
    (member :
      event ∈ [booted.tdHob, booted.cfv] ++ booted.secureBoot ++
        [booted.separator] ++ booted.acpi ++ booted.boot) :
    event.mrIndex = 1 := by
  rw [← booted.rtmr0Events_eq, rtmr0Events] at member
  simpa using (List.mem_filter.1 member).2

theorem mem_events
    (booted : UkiBootEvents sha384 events) {event : CcelEvent}
    (member : event ∈ booted.acpi) :
    event ∈ events := by
  have selected : event ∈ rtmr0Events events := by
    rw [booted.rtmr0Events_eq]
    simp [member]
  exact (List.mem_filter.1 selected).1

theorem boot_type
    (booted : UkiBootEvents sha384 events) {event : CcelEvent}
    (member : event ∈ booted.boot) :
    event.eventType = 0x80000002 := by
  rcases List.mem_iff_getElem.1 member with ⟨index, inside, rfl⟩
  exact
    (booted.boot_variables.get inside
      (booted.boot_variables.length_eq ▸ inside)).eventType_eq

/-- The ACPI digests are those of the three events behind the separator. -/
theorem foldl_acpiStep (booted : UkiBootEvents sha384 events) :
    (events.foldl acpiStep (false, [])).2 =
      booted.acpi.map (·.sha384Digest) := by
  have early :
      ([booted.tdHob, booted.cfv] ++ booted.secureBoot).foldl acpiStep
          (false, []) = (false, []) :=
    foldl_acpiStep_other
      (fun event member =>
        ⟨(booted.early_types event member).1,
          (booted.early_types event member).2.1⟩) _
  have separated :
      acpiStep (false, []) booted.separator = (true, []) := by
    have selected : booted.separator.mrIndex = 1 :=
      booted.mrIndex_eq (by simp)
    simp [acpiStep, selected, booted.separator_type]
  have tables :
      booted.acpi.foldl acpiStep (true, []) =
        (true, booted.acpi.map (·.sha384Digest)) :=
    foldl_acpiStep_tables
      (fun event member =>
        ⟨booted.mrIndex_eq (by simp [member]),
          booted.acpi_types event member⟩) []
  have late (state : Bool × List Bytes) :
      booted.boot.foldl acpiStep state = state := by
    apply foldl_acpiStep_other
    intro event member
    rw [booted.boot_type member]
    decide
  rw [foldl_acpiStep_rtmr0Events, booted.rtmr0Events_eq, List.foldl_append,
    List.foldl_append, List.foldl_append, early, List.foldl_cons,
    List.foldl_nil, separated, tables, late]

/-- The boot variables are the values of the events of the last group. -/
theorem filterMap_bootVarOf (booted : UkiBootEvents sha384 events) :
    events.filterMap bootVarOf = booted.values := by
  have early :
      ([booted.tdHob, booted.cfv] ++ booted.secureBoot ++
        [booted.separator] ++ booted.acpi).filterMap bootVarOf = [] := by
    apply filterMap_bootVarOf_other
    intro event member
    rcases List.mem_append.1 member with before | table
    · rcases List.mem_append.1 before with first | separator
      · exact (booted.early_types event first).2.2
      · rw [List.mem_singleton.1 separator, booted.separator_type]
        decide
    · rw [booted.acpi_types event table]
      decide
  have late :
      ∀ {boot : List CcelEvent} {values : List Bytes},
        List.Forall₂ (IsBootVariable sha384) boot values →
          (∀ event ∈ boot, event.mrIndex = 1) →
            boot.filterMap bootVarOf = values := by
    intro boot values variables_of selected
    induction variables_of with
    | nil => rfl
    | @cons event value boot values isVariable _ induction =>
        rcases isVariable.parses with ⟨name, parses⟩
        have valueOf : bootVarOf event = some value := by
          rw [bootVarOf, if_pos
            ⟨isVariable.eventType_eq, selected event List.mem_cons_self⟩,
            parses]
          rfl
        rw [List.filterMap_cons_some valueOf,
          induction fun event member =>
            selected event (List.mem_cons_of_mem _ member)]
  rw [filterMap_bootVarOf_rtmr0Events, booted.rtmr0Events_eq,
    List.filterMap_append, early, List.nil_append]
  exact
    late booted.boot_variables fun event member =>
      booted.mrIndex_eq (by simp [member])

theorem map_bootDigest (booted : UkiBootEvents sha384 events) :
    booted.boot.map (·.sha384Digest) =
      booted.values.map fun value => (sha384 value).bytes := by
  have same :
      ∀ {boot : List CcelEvent} {values : List Bytes},
        List.Forall₂ (IsBootVariable sha384) boot values →
          boot.map (·.sha384Digest) =
            values.map fun value => (sha384 value).bytes := by
    intro boot values variables_of
    induction variables_of with
    | nil => rfl
    | cons isVariable _ induction =>
        rw [List.map_cons, List.map_cons, isVariable.digest_eq, induction]
  exact same booted.boot_variables

theorem extractAcpiHashes
    (booted : UkiBootEvents sha384 events) {log : Bytes}
    (parsed : parseCcel log = .ok events) :
    ∃ acpi : AcpiHashes,
      AcpiHashes.extractFromCcel log = .ok acpi ∧
        [acpi.loaderHash, acpi.rsdpHash, acpi.tablesHash] =
          booted.acpi.map (·.sha384Digest) := by
  rcases List.length_eq_three.1 booted.acpi_length with
    ⟨loader, rsdp, tables, three⟩
  have long (event : CcelEvent) (member : event ∈ [loader, rsdp, tables]) :
      event.sha384Digest.length = 48 :=
    length_sha384Digest_of_parseCcel parsed
      (booted.mem_events (three ▸ member))
  have collected := booted.foldl_acpiStep
  rw [three] at collected
  refine ⟨⟨loader.sha384Digest, rsdp.sha384Digest, tables.sha384Digest⟩,
    ?_, by rw [three]; rfl⟩
  rw [AcpiHashes.extractFromCcel, parsed]
  change AcpiHashes.ofDigests (events.foldl acpiStep (false, [])).2 = _
  rw [collected]
  simp [AcpiHashes.ofDigests, long]

theorem extractBootVars
    (booted : UkiBootEvents sha384 events) {log : Bytes}
    (parsed : parseCcel log = .ok events) :
    BootVars.extractFromCcel log =
      .ok ({ entries := booted.values } : BootVars) := by
  have nonempty : booted.values ≠ [] := by
    intro empty
    have variables_of := booted.boot_variables
    rw [empty] at variables_of
    exact booted.boot_nonempty (List.forall₂_nil_right_iff.1 variables_of)
  rw [BootVars.extractFromCcel, parsed]
  change
    (if (events.filterMap bootVarOf).isEmpty then
        Except.error _
      else
        Except.ok ({ entries := events.filterMap bootVarOf } : BootVars)) = _
  rw [booted.filterMap_bootVarOf, if_neg]
  rwa [List.isEmpty_iff]

end UkiBootEvents

/-! ## Agreement with the replay -/

/--
RTMR[0] predicted from what an accepted log of a UKI boot holds is the register
the log replays to, whatever events of other registers stand in between.
-/
theorem rtmr0_extracted_eq_replay
    {log : Bytes} {events : List CcelEvent}
    (parsed : parseCcel log = .ok events)
    (booted : UkiBootEvents sha384 events)
    {tdvf : Tdvf} {memorySize : UInt64}
    {tdHobHash cfvHash : Block 48} {secureBoot : List Bytes}
    (measuredTdHob : measureTdHob sha384 tdvf memorySize = .ok tdHobHash)
    (measuredCfv : measureCfv sha384 tdvf = .ok cfvHash)
    (measuredSecureBoot : secureBootDigests sha384 = .ok secureBoot)
    (first :
      [booted.tdHob, booted.cfv].map (·.sha384Digest) =
        [tdHobHash.bytes, cfvHash.bytes])
    (next :
      (booted.secureBoot ++ [booted.separator]).map (·.sha384Digest) =
        secureBoot) :
    (do
      let acpi ← AcpiHashes.extractFromCcel log
      let bootVars ← BootVars.extractFromCcel log
      rtmr0 sha384 tdvf memorySize (some acpi) (some bootVars)) =
      .ok (replayRtmrs sha384 events 0, 11 + booted.boot.length) := by
  rcases booted.extractAcpiHashes parsed with ⟨acpi, extracted, three⟩
  have logged :
      digestsOf 1 events =
        [tdHobHash.bytes, cfvHash.bytes] ++ secureBoot ++
          [acpi.loaderHash, acpi.rsdpHash, acpi.tablesHash] ++
            booted.values.map fun value => (sha384 value).bytes := by
    change (rtmr0Events events).map (·.sha384Digest) = _
    rw [booted.rtmr0Events_eq, three, ← booted.map_bootDigest, ← first, ← next]
    simp
  have counted :
      (digestsOf 1 events).length = 11 + booted.boot.length := by
    change ((rtmr0Events events).map (·.sha384Digest)).length = _
    rw [List.length_map, booted.rtmr0Events_eq]
    simp [booted.secureBoot_length, booted.acpi_length]
    omega
  have replayed : replayRtmrs sha384 events 0 = _ :=
    replayRtmrs_apply sha384 events 0
  change _ = measureLog sha384 (digestsOf 1 events) at replayed
  rw [extracted, booted.extractBootVars parsed, replayed, ← counted, logged]
  change rtmr0 sha384 tdvf memorySize (some acpi)
    (some ({ entries := booted.values } : BootVars)) = _
  rw [rtmr0, measuredTdHob, measuredCfv, measuredSecureBoot]
  rfl

end

/-! ## A boot with one boot variable -/

theorem paddedDigests_le :
    ([{ algorithm := .sha384, digest := Block.zero 48 }] :
      List TaggedDigest).length ≤ maxDigestAlgorithms.toNat := by
  decide

theorem one_ne_mrIndexMax : (1 : UInt32) ≠ 0xFFFFFFFF := by decide

theorem two_ne_mrIndexMax : (2 : UInt32) ≠ 0xFFFFFFFF := by decide

/-- A record with one SHA-384 digest of zeros and 32 bytes of zeros. -/
def paddedRecord
    (eventType : UInt32) (mrIndex : UInt32) (allowed : mrIndex ≠ 0xFFFFFFFF) :
    LogRecord where
  mrIndex
  eventType
  digests := [{ algorithm := .sha384, digest := Block.zero 48 }]
  eventData := List.replicate 32 0
  digests_le := paddedDigests_le
  data_lt := by decide
  mrIndex_ne := allowed
  continues := by
    rintro ⟨-, -, impossible⟩
    exact absurd (List.length_replicate.symm.trans impossible) (by decide)

/-- The types of the events of RTMR[0]; one of RTMR[1] stands behind them. -/
def sampleLog : EventLog where
  header :=
    { pcrIndex := Block.zero 4, digest := Block.zero 20, body := [],
      body_lt := emptyBody_lt }
  records :=
    [1, 1, 0x80000001, 0x80000001, 0x80000001, 0x80000001, 0x80000001, 4,
      0x0a, 0x0a, 0x0a, 0x80000002].map
        (fun eventType => paddedRecord eventType 1 one_ne_mrIndexMax) ++
      [paddedRecord 4 2 two_ne_mrIndexMax]
  few := by decide

/-- The event of a padded record of RTMR[0]. -/
def paddedEvent (eventType : UInt32) : CcelEvent where
  mrIndex := 1
  eventType
  sha384Digest := List.replicate 48 0
  eventData := List.replicate 32 0

def sampleEvents :
    UkiBootEvents (fun _ => Block.zero 48)
      (recordEvents sampleLog.records) where
  tdHob := paddedEvent 1
  cfv := paddedEvent 1
  secureBoot := List.replicate 5 (paddedEvent 0x80000001)
  separator := paddedEvent 4
  acpi := List.replicate 3 (paddedEvent 0x0a)
  boot := [paddedEvent 0x80000002]
  values := [[]]
  rtmr0Events_eq := by decide
  secureBoot_length := rfl
  early_types := by decide
  separator_type := rfl
  acpi_length := rfl
  acpi_types := by decide
  boot_nonempty := by decide
  boot_variables := .cons ⟨rfl, ⟨"", by decide⟩, rfl⟩ .nil

/-- An image that has a variable store only. -/
def sampleTdvf : Tdvf where
  fw := [0]
  sections :=
    [{ dataOffset := 0
       rawDataSize := 1
       memoryAddress := 0x1000
       memoryDataSize := 0x1000
       secType := tdvfSectionTdCfv
       attributes := 0
       address_aligned := by decide
       raw_le := by decide
       size_aligned := by decide
       data_fits := by decide
       extend_fits := by decide }]

theorem rtmr0_extracted_eq_replay_sample :
    ∃ log events,
      parseCcel log = .ok events ∧ events.length = 13 ∧
        (do
          let acpi ← AcpiHashes.extractFromCcel log
          let bootVars ← BootVars.extractFromCcel log
          rtmr0 (fun _ => Block.zero 48) sampleTdvf 0x1000 (some acpi)
            (some bootVars)) =
          .ok (replayRtmrs (fun _ => Block.zero 48) events 0, 12) := by
  have parsed := parseCcel_encode sampleLog .empty
  rw [LogTail.encode, List.append_nil] at parsed
  have measuredTdHob :
      measureTdHob (fun _ => Block.zero 48) sampleTdvf 0x1000 =
        .ok (Block.zero 48) :=
    rfl
  have measuredCfv :
      measureCfv (fun _ => Block.zero 48) sampleTdvf = .ok (Block.zero 48) :=
    rfl
  have measuredSecureBoot :
      secureBootDigests (fun _ => Block.zero 48) =
        .ok (List.replicate 6 (List.replicate 48 0)) :=
    rfl
  refine ⟨_, _, parsed, by decide, ?_⟩
  exact
    rtmr0_extracted_eq_replay parsed sampleEvents measuredTdHob measuredCfv
      measuredSecureBoot rfl rfl

end Confos.Tdx.Rtmr0Replay
