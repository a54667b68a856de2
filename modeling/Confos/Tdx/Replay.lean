import Confos.Library.Registers
import Confos.Tdx.CcelRoundTrip
import Confos.Tdx.Rtmr

/-!
# Replaying the event log

A register replayed from the event log is the fold over the digests of its own
events.  So RTMR[2] predicted from a UKI is the one replayed from a guest's log
whenever the log's events for it carry the predicted digests, whatever else
the log holds.
-/

namespace Confos.Tdx.Replay

open Confos.Library.ByteStrings
open Confos.Library.Registers
open Confos.Tdx.Ccel
open Confos.Tdx.CcelRecords
open Confos.Tdx.CcelRoundTrip
open Confos.Tdx.Rtmr

section

variable (sha384 : Bytes → Block 48)

/-- The digests of the events that name one register, in order. -/
def digestsOf (mrIndex : UInt32) (events : List CcelEvent) : List Bytes :=
  (events.filter (·.mrIndex = mrIndex)).map (·.sha384Digest)

theorem rtmrIndex_eq_some_iff
    {mrIndex : UInt32} {index : Fin 4} :
    rtmrIndex mrIndex = some index ↔
      mrIndex = UInt32.ofNat (index.val + 1) := by
  have inverse : ∀ index : Fin 4,
      rtmrIndex (UInt32.ofNat (index.val + 1)) = some index := by
    decide
  constructor
  · intro named
    rw [rtmrIndex] at named
    split_ifs at named with first second third fourth
    · cases named
      exact first
    · cases named
      exact second
    · cases named
      exact third
    · cases named
      exact fourth
  · rintro rfl
    exact inverse index

theorem replayRtmrs_eq_replay (events : List CcelEvent) :
    replayRtmrs sha384 events =
      replay (fun event => rtmrIndex event.mrIndex)
        (fun current event => rtmrExtend sha384 current event.sha384Digest)
        (fun _ => Block.zero 48) events := by
  rw [replay, replayRtmrs]
  congr 1
  funext rtmrs event
  rw [extendRegister]
  cases rtmrIndex event.mrIndex with
  | none => rfl
  | some index => rfl

/-- A replayed register is the log of the digests that name it. -/
theorem replayRtmrs_apply (events : List CcelEvent) (index : Fin 4) :
    replayRtmrs sha384 events index =
      measureLog sha384
        (digestsOf (UInt32.ofNat (index.val + 1)) events) := by
  rw [replayRtmrs_eq_replay, replay_apply, measureLog, digestsOf,
    List.foldl_map]
  have sameFilter :
      (fun event : CcelEvent =>
          decide (rtmrIndex event.mrIndex = some index)) =
        fun event =>
          decide (event.mrIndex = UInt32.ofNat (index.val + 1)) := by
    funext event
    exact decide_eq_decide.2 rtmrIndex_eq_some_iff
  rw [sameFilter]

/--
RTMR[2] predicted from the sections of a UKI is the one replayed from any
accepted log whose events for it carry the predicted digests; and every
register is the fold over the digests that name it and over nothing else.
-/
theorem computeRtmr2Uki_eq_replay
    {sections : List (String × Bytes)} {digests : List Rtmr2Digest}
    (precomputed : precomputeRtmr2Digests sha384 sections = .ok digests) :
    (∀ (log : Bytes) (events : List CcelEvent),
      parseCcel log = .ok events →
        digestsOf 3 events = digests.map (·.digest.bytes) →
          computeRtmr2Uki sha384 sections =
            .ok (replayRtmrs sha384 events 2, digests.length)) ∧
      (∀ (events : List CcelEvent) (index : Fin 4),
        replayRtmrs sha384 events index =
          (digestsOf (UInt32.ofNat (index.val + 1)) events).foldl
            (rtmrExtend sha384) (Block.zero 48)) ∧
      ∀ (events others : List CcelEvent) (index : Fin 4),
        digestsOf (UInt32.ofNat (index.val + 1)) events =
            digestsOf (UInt32.ofNat (index.val + 1)) others →
          replayRtmrs sha384 events index =
            replayRtmrs sha384 others index := by
  refine ⟨?_, ?_, ?_⟩
  · intro log events _ carried
    have predicted :
        computeRtmr2Uki sha384 sections =
          .ok
            (measureLog sha384 (digests.map (·.digest.bytes)),
              digests.length) := by
      rw [computeRtmr2Uki, precomputed]
      rfl
    have replayed := replayRtmrs_apply sha384 events 2
    change _ = measureLog sha384 (digestsOf 3 events) at replayed
    rw [predicted, replayed, carried]
  · intro events index
    exact replayRtmrs_apply sha384 events index
  · intro events others index same
    rw [replayRtmrs_apply, replayRtmrs_apply, same]

end

/-! ## A log with events of other registers -/

/-- A record with one SHA-384 digest of zeros and no data. -/
def zeroRecord
    (mrIndex : UInt32) (allowed : mrIndex ≠ 0xFFFFFFFF) : LogRecord where
  mrIndex
  eventType := 4
  digests := [{ algorithm := .sha384, digest := Block.zero 48 }]
  eventData := []
  digests_le := by decide
  data_lt := by decide
  mrIndex_ne := allowed
  continues := by
    rintro ⟨impossible, -, -⟩
    cases impossible

/-- Two events of RTMR[2], each behind an event of another register. -/
def interleavedLog : EventLog where
  header :=
    { pcrIndex := Block.zero 4, digest := Block.zero 20, body := [],
      body_lt := by decide }
  records :=
    [zeroRecord 1 (by decide), zeroRecord 3 (by decide),
      zeroRecord 2 (by decide), zeroRecord 3 (by decide)]
  few := by decide

theorem computeRtmr2Uki_eq_replay_interleaved :
    ∃ events,
      parseCcel interleavedLog.encode = .ok events ∧ events.length = 4 ∧
        computeRtmr2Uki (fun _ => Block.zero 48) [(".linux", [1])] =
          .ok (replayRtmrs (fun _ => Block.zero 48) events 2, 2) := by
  have parsed := parseCcel_encode interleavedLog .empty
  rw [LogTail.encode, List.append_nil] at parsed
  have precomputed :
      precomputeRtmr2Digests (fun _ => Block.zero 48) [(".linux", [1])] =
        .ok
          [{ kind := "name", sectionName := ".linux",
             digest := Block.zero 48 },
            { kind := "data", sectionName := ".linux",
              digest := Block.zero 48 }] :=
    rfl
  refine ⟨_, parsed, rfl, ?_⟩
  exact
    (computeRtmr2Uki_eq_replay (fun _ => Block.zero 48) precomputed).1 _ _
      parsed rfl

end Confos.Tdx.Replay
