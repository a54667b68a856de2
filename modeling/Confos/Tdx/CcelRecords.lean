import Confos.Tdx.Ccel

/-!
# Complete event logs

The byte form of a TCG2 log: a Spec ID header, the records, and a tail that is
empty, a terminator record, or the filling of the unused space.  `parseCcel`
accepts exactly these logs, returns the records with a SHA-384 digest, and
refuses every cut inside a record.
-/

namespace Confos.Tdx.CcelRecords

open Confos.Library.ByteStrings
open Confos.Tdx.Ccel

/-! ## Digests -/

inductive DigestAlgorithm where
  | sha384
  | sha256
  | sha1
deriving DecidableEq, Repr

def DigestAlgorithm.algoId : DigestAlgorithm → UInt16
  | .sha384 => 0x000C
  | .sha256 => 0x000B
  | .sha1 => 0x0004

def DigestAlgorithm.size : DigestAlgorithm → Nat
  | .sha384 => 48
  | .sha256 => 32
  | .sha1 => 20

theorem digestSize_algoId (algorithm : DigestAlgorithm) :
    digestSize algorithm.algoId = some algorithm.size := by
  cases algorithm <;> rfl

theorem exists_algorithm_of_digestSize
    {algoId : UInt16} {size : Nat}
    (known : digestSize algoId = some size) :
    ∃ algorithm : DigestAlgorithm,
      algorithm.algoId = algoId ∧ algorithm.size = size := by
  rw [digestSize] at known
  split at known
  · rename_i equal
    cases known
    exact ⟨.sha384, equal.symm, rfl⟩
  · split at known
    · rename_i equal
      cases known
      exact ⟨.sha256, equal.symm, rfl⟩
    · split at known
      · rename_i equal
        cases known
        exact ⟨.sha1, equal.symm, rfl⟩
      · cases known

theorem algoId_eq_sha384_iff {algorithm : DigestAlgorithm} :
    algorithm.algoId = 0x000C ↔ algorithm = .sha384 := by
  cases algorithm <;> decide

/-- A digest with its algorithm, of the length the algorithm has. -/
structure TaggedDigest where
  algorithm : DigestAlgorithm
  digest : Block algorithm.size

def TaggedDigest.encode (tagged : TaggedDigest) : Bytes :=
  leBytes 2 tagged.algorithm.algoId.toNat ++ tagged.digest.bytes

@[simp]
theorem TaggedDigest.length_encode (tagged : TaggedDigest) :
    tagged.encode.length = 2 + tagged.algorithm.size := by
  simp [encode]

/-- The digest if it is a SHA-384 one. -/
def TaggedDigest.sha384? (tagged : TaggedDigest) : Option Bytes :=
  if tagged.algorithm = .sha384 then some tagged.digest.bytes else none

/-- The SHA-384 digest of a record; of several, the last. -/
def sha384Of (digests : List TaggedDigest) : Option Bytes :=
  (digests.filterMap TaggedDigest.sha384?).getLast?

theorem sha384Of_cons (tagged : TaggedDigest) (digests : List TaggedDigest)
    (start : Bytes) :
    (sha384Of (tagged :: digests)).getD start =
      (sha384Of digests).getD (tagged.sha384?.getD start) := by
  rw [sha384Of, sha384Of, List.filterMap_cons]
  cases tagged.sha384? with
  | none => rfl
  | some digest => simp [List.getLast?_cons]

theorem sha384Of_ne_nil
    {digests : List TaggedDigest} {digest : Bytes}
    (found : sha384Of digests = some digest) :
    digest ≠ [] := by
  have member := List.mem_of_getLast? found
  obtain ⟨tagged, -, isSha384⟩ := List.mem_filterMap.1 member
  rw [TaggedDigest.sha384?] at isSha384
  split at isSha384
  · rename_i algorithm
    cases isSha384
    intro empty
    have length := tagged.digest.length_eq
    rw [empty, algorithm] at length
    exact absurd length (by decide)
  · cases isSha384

/-! ## Records -/

/-- A record of the log, or the terminator. -/
structure LogEntry where
  mrIndex : UInt32
  eventType : UInt32
  digests : List TaggedDigest
  eventData : Bytes
  digests_le : digests.length ≤ maxDigestAlgorithms.toNat
  data_lt : eventData.length < 2 ^ 32
  mrIndex_ne : mrIndex ≠ 0xFFFFFFFF

def LogEntry.encodeDigests (entry : LogEntry) : Bytes :=
  entry.digests.flatMap TaggedDigest.encode

def LogEntry.encode (entry : LogEntry) : Bytes :=
  leBytes 4 entry.mrIndex.toNat ++
    (leBytes 4 entry.eventType.toNat ++
      (leBytes 4 entry.digests.length ++
        (entry.encodeDigests ++
          (leBytes 4 entry.eventData.length ++ entry.eventData))))

theorem LogEntry.length_encode (entry : LogEntry) :
    entry.encode.length =
      12 + entry.encodeDigests.length + 4 + entry.eventData.length := by
  simp [encode]
  omega

def LogEntry.IsTerminator (entry : LogEntry) : Prop :=
  entry.eventType = 0 ∧ entry.mrIndex = 0 ∧ entry.eventData.length = 0

instance (entry : LogEntry) : Decidable entry.IsTerminator :=
  inferInstanceAs (Decidable (_ ∧ _))

/-- The event the parser makes of an entry, before it looks at the digest. -/
def LogEntry.event (entry : LogEntry) : CcelEvent :=
  { mrIndex := entry.mrIndex
    eventType := entry.eventType
    sha384Digest := (sha384Of entry.digests).getD []
    eventData := entry.eventData }

/-- A record that does not end the log. -/
structure LogRecord extends LogEntry where
  continues : ¬ toLogEntry.IsTerminator

/-- The event of a record that carries a SHA-384 digest. -/
def LogRecord.event? (record : LogRecord) : Option CcelEvent :=
  (sha384Of record.digests).map fun sha384Digest =>
    { mrIndex := record.mrIndex
      eventType := record.eventType
      sha384Digest
      eventData := record.eventData }

def encodeRecords (records : List LogRecord) : Bytes :=
  records.flatMap (·.toLogEntry.encode)

def recordEvents (records : List LogRecord) : List CcelEvent :=
  records.filterMap LogRecord.event?

/-- The parser drops the event of a record exactly when it has no SHA-384 digest. -/
theorem LogRecord.event?_eq (record : LogRecord) :
    record.event? =
      if record.event.sha384Digest.isEmpty then none else some record.event := by
  rw [event?, LogEntry.event]
  cases found : sha384Of record.digests with
  | none => rfl
  | some digest =>
      have nonempty := sha384Of_ne_nil found
      simp [nonempty]

/-- The Spec ID header: an `EV_NO_ACTION` event with a body of its own length. -/
structure SpecIdHeader where
  pcrIndex : Block 4
  digest : Block 20
  body : Bytes
  body_lt : body.length < 2 ^ 32

theorem emptyBody_lt : ([] : Bytes).length < 2 ^ 32 := by decide

def SpecIdHeader.encode (header : SpecIdHeader) : Bytes :=
  header.pcrIndex.bytes ++
    (leBytes 4 3 ++
      (header.digest.bytes ++ (leBytes 4 header.body.length ++ header.body)))

theorem SpecIdHeader.length_encode (header : SpecIdHeader) :
    header.encode.length = 32 + header.body.length := by
  simp [encode]
  omega

/-- What may stand behind the records. -/
inductive LogTail where
  | empty
  | terminator (entry : LogEntry) (ends : entry.IsTerminator) (rest : Bytes)
  | padding (rest : Bytes) (long : 4 ≤ rest.length)

def LogTail.encode : LogTail → Bytes
  | .empty => []
  | .terminator entry _ rest => entry.encode ++ rest
  | .padding rest _ => leBytes 4 0xFFFFFFFF ++ rest

def LogTail.terminates : LogTail → Bool
  | .empty => false
  | .terminator .. => true
  | .padding .. => true

end Confos.Tdx.CcelRecords
