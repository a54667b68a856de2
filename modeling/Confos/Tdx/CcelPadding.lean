import Confos.Tdx.CcelRoundTrip

/-!
# Padded event logs

Firmware fills the unused space behind the last record with `0xFF`, and the
parser takes an index of `0xFFFFFFFF` for the end of the log.  It looks at the
index only after it has seen room for a whole record header, so a filling that
is shorter than a header is read as a truncated record.
-/

namespace Confos.Tdx.CcelPadding

open Confos.Library.ByteStrings
open Confos.Tdx.Ccel
open Confos.Tdx.CcelRecords
open Confos.Tdx.CcelRoundTrip

/-- Unused log space. -/
def padding (count : Nat) : Bytes :=
  List.replicate count 0xFF

@[simp]
theorem length_padding (count : Nat) : (padding count).length = count :=
  List.length_replicate

/-- A filling as long as a record header is a tail the parser knows. -/
theorem exists_tail_of_padding {count : Nat} (long : 8 ≤ count) :
    ∃ tail : LogTail, tail.encode = padding count := by
  have index : leBytes 4 0xFFFFFFFF = padding 4 := by decide
  have rest : 4 ≤ (padding (count - 4)).length := by
    rw [length_padding]
    omega
  refine ⟨.padding (padding (count - 4)) rest, ?_⟩
  rw [LogTail.encode, index, padding, padding, padding,
    List.replicate_append_replicate]
  congr 1
  omega

/-- The loop leaves its records for a filling, or for what else follows them. -/
theorem parseCcel_append (log : EventLog) (behind : Bytes) :
    parseCcel (log.encode ++ behind) =
      scanEvents (log.encode ++ behind) log.encode.length
          (recordEvents log.records) >>=
        finishScan (log.encode ++ behind) := by
  have reads :
      ReadsAt (log.encode ++ behind) 0
        (log.header.encode ++ (encodeRecords log.records ++ behind)) := by
    constructor
    · simp [EventLog.encode]
    · simp [EventLog.encode]
  have atRecords := reads.advance rfl
  have few :
      ([] : List CcelEvent).length + (recordEvents log.records).length ≤
        maxEvents := by
    simpa using log.few
  rw [Nat.zero_add] at atRecords
  rw [parseCcel_header log.header reads, scanEvents_records atRecords few,
    List.nil_append, EventLog.encode, List.length_append]

/-- A rest too short for a record header is a truncated record. -/
theorem parseCcel_of_short
    (log : EventLog) {behind : Bytes}
    (nonempty : behind ≠ []) (short : behind.length < 8) :
    parseCcel (log.encode ++ behind) =
      .error s!"CCEL event log truncated at offset 0x{lowerHex 0 log.encode.length} ({(recordEvents log.records).length} events parsed before truncation)" := by
  have positive := List.length_pos_iff.2 nonempty
  have inside : log.encode.length < (log.encode ++ behind).length := by
    rw [List.length_append]
    omega
  have truncated :
      parseRecord (log.encode ++ behind) log.encode.length =
        .ok .truncated := by
    rw [parseRecord, if_pos]
    rw [List.length_append]
    omega
  rw [parseCcel_append, scanEvents, if_pos inside, truncated]
  change finishScan _ _ = _
  rw [finishScan, if_pos]
  simpa using inside

/--
A padded log gives the events of its records, as the log without the padding
does, unless the padding is one to seven bytes long.
-/
theorem parseCcel_padded_iff (log : EventLog) (count : Nat) :
    (parseCcel (log.encode ++ padding count) =
          .ok (recordEvents log.records) ∧
        parseCcel (log.encode ++ padding count) = parseCcel log.encode) ↔
      count = 0 ∨ 8 ≤ count := by
  have unpadded :
      parseCcel log.encode = .ok (recordEvents log.records) := by
    have accepted := parseCcel_encode log .empty
    rwa [LogTail.encode, List.append_nil] at accepted
  constructor
  · rintro ⟨accepted, -⟩
    by_contra between
    have nonempty : padding count ≠ [] := by
      apply List.length_pos_iff.1
      rw [length_padding]
      omega
    have short : (padding count).length < 8 := by
      rw [length_padding]
      omega
    rw [parseCcel_of_short log nonempty short] at accepted
    cases accepted
  · rintro (rfl | long)
    · rw [padding, List.replicate_zero, List.append_nil]
      exact ⟨unpadded, rfl⟩
    · rcases exists_tail_of_padding long with ⟨tail, encoded⟩
      rw [← encoded, unpadded]
      exact ⟨parseCcel_encode log tail, parseCcel_encode log tail⟩

/-! ## A padded log -/

theorem oneDigest_le : 1 ≤ maxDigestAlgorithms.toNat := by decide

theorem first_ne_mrIndexMax : (1 : UInt32) ≠ 0xFFFFFFFF := by decide

/-- A separator event with its SHA-384 digest. -/
def separatorRecord : LogRecord where
  mrIndex := 1
  eventType := 4
  digests := [{ algorithm := .sha384, digest := Block.zero 48 }]
  eventData := [0, 0, 0, 0]
  digests_le := oneDigest_le
  data_lt := by decide
  mrIndex_ne := first_ne_mrIndexMax
  continues := by decide

def separatorLog : EventLog where
  header :=
    { pcrIndex := Block.zero 4, digest := Block.zero 20, body := [],
      body_lt := emptyBody_lt }
  records := [separatorRecord]
  few := by decide

/-- Four bytes of padding, which are an index of `0xFFFFFFFF`. -/
theorem not_parseCcel_padded_four :
    recordEvents separatorLog.records ≠ [] ∧
      parseCcel (separatorLog.encode ++ padding 0) =
        .ok (recordEvents separatorLog.records) ∧
      parseCcel (separatorLog.encode ++ padding 4) ≠
        .ok (recordEvents separatorLog.records) := by
  refine ⟨by decide, ?_, ?_⟩
  · exact parseCcel_encode separatorLog .empty
  · rw [parseCcel_of_short separatorLog (by decide) (by decide)]
    intro same
    cases same

end Confos.Tdx.CcelPadding
