import Confos.Library.ByteStrings

/-!
# The CC event log

`parseCcel` reads the TCG2 event log of a TDX guest and `replayRtmrs` extends
the four runtime registers by its events.  The parser keeps the offset and the
bounds checks of the source: each way a record can run past the end of the log
leaves the loop without the `terminated` flag, and the test after the loop
turns it into an error.
-/

namespace Confos.Tdx.Ccel

open Confos.Library.ByteStrings

def maxDigestAlgorithms : UInt32 := 16
def maxEvents : Nat := 10000

/-- A parsed CCEL event. -/
@[ext]
structure CcelEvent where
  mrIndex : UInt32
  eventType : UInt32
  sha384Digest : Bytes
  eventData : Bytes
deriving DecidableEq, Repr

/-! ## Numbers in the log -/

def u16At (data : Bytes) (offset : Nat) : UInt16 :=
  UInt16.ofNat (ofLeBytes (slice data offset 2))

def u32At (data : Bytes) (offset : Nat) : UInt32 :=
  UInt32.ofNat (ofLeBytes (slice data offset 4))

/-! ## One record -/

/-- The size of a digest by its algorithm: SHA-384, SHA-256 and SHA-1. -/
def digestSize (algoId : UInt16) : Option Nat :=
  if algoId = 0x000C then some 48
  else if algoId = 0x000B then some 32
  else if algoId = 0x0004 then some 20
  else none

/--
The digest loop of the record at `offset`: the position behind the digests and
the last SHA-384 digest, or `none` where a digest runs past the end.
-/
def parseDigests (data : Bytes) (offset : Nat) :
    Nat → Nat → Bytes → Except String (Option (Nat × Bytes))
  | 0, pos, sha384Digest => .ok (some (pos, sha384Digest))
  | count + 1, pos, sha384Digest =>
      if data.length < pos + 2 then
        .ok none
      else
        let algoId := u16At data pos
        match digestSize algoId with
        | none =>
            .error s!"Unknown digest algorithm 0x{lowerHex 4 algoId.toNat} at offset 0x{lowerHex 0 offset}; cannot determine digest size"
        | some size =>
            if data.length < pos + 2 + size then
              .ok none
            else
              parseDigests data offset count (pos + 2 + size)
                (if algoId = 0x000C then slice data (pos + 2) size
                  else sha384Digest)

/-- How one turn of the loop over the records ends. -/
inductive Turn where
  | truncated
  | terminated
  | record (event : CcelEvent) (next : Nat)
deriving DecidableEq, Repr

/-- One turn of the loop in `parse_ccel`, at a record inside the log. -/
def parseRecord (data : Bytes) (offset : Nat) : Except String Turn :=
  if data.length < offset + 8 then
    .ok .truncated
  else if u32At data offset = 0xFFFFFFFF then
    .ok .terminated
  else if data.length < offset + 8 + 4 then
    .ok .truncated
  else if maxDigestAlgorithms < u32At data (offset + 8) then
    .error s!"Unreasonable digest count {u32At data (offset + 8)} at offset 0x{lowerHex 0 offset}"
  else
    match parseDigests data offset (u32At data (offset + 8)).toNat
        (offset + 8 + 4) [] with
    | .error message => .error message
    | .ok none => .ok .truncated
    | .ok (some (pos, sha384Digest)) =>
        if data.length < pos + 4 then
          .ok .truncated
        else
          let eventDataSize := (u32At data pos).toNat
          if data.length < pos + 4 + eventDataSize then
            .ok .truncated
          else if u32At data (offset + 4) = 0 ∧ u32At data offset = 0 ∧
              eventDataSize = 0 then
            .ok .terminated
          else
            .ok (.record
              { mrIndex := u32At data offset
                eventType := u32At data (offset + 4)
                sha384Digest
                eventData := slice data (pos + 4) eventDataSize }
              (pos + 4 + eventDataSize))

theorem le_of_parseDigests
    {data : Bytes} {offset count pos : Nat} {sha384Digest : Bytes}
    {next : Nat} {digest : Bytes}
    (parsed :
      parseDigests data offset count pos sha384Digest =
        .ok (some (next, digest))) :
    pos ≤ next := by
  induction count generalizing pos sha384Digest with
  | zero =>
      cases parsed
      exact le_rfl
  | succ count induction =>
      rw [parseDigests] at parsed
      split at parsed
      · cases parsed
      · dsimp only at parsed
        split at parsed
        · cases parsed
        · split at parsed
          · cases parsed
          · have later := induction parsed
            omega

/-- The facts under which the turn at `offset` reaches the size of the event data. -/
structure ReadsFields (data : Bytes) (offset pos : Nat) (sha384Digest : Bytes) :
    Prop where
  head_fits : offset + 8 + 4 ≤ data.length
  mrIndex_ne : u32At data offset ≠ 0xFFFFFFFF
  count_le : u32At data (offset + 8) ≤ maxDigestAlgorithms
  digests :
    parseDigests data offset (u32At data (offset + 8)).toNat (offset + 8 + 4)
        [] =
      .ok (some (pos, sha384Digest))
  data_fits : pos + 4 + (u32At data pos).toNat ≤ data.length

/-- The record that marks the end of the log. -/
def IsTerminator (data : Bytes) (offset pos : Nat) : Prop :=
  u32At data (offset + 4) = 0 ∧ u32At data offset = 0 ∧
    (u32At data pos).toNat = 0

instance (data : Bytes) (offset pos : Nat) :
    Decidable (IsTerminator data offset pos) :=
  inferInstanceAs (Decidable (_ ∧ _))

/-- What one turn of the loop can do, with the facts that lead there. -/
inductive TurnCases (data : Bytes) (offset : Nat) : Except String Turn → Prop
  | error (message : String) : TurnCases data offset (.error message)
  | truncated : TurnCases data offset (.ok .truncated)
  | padding
      (fits : offset + 8 ≤ data.length)
      (filled : u32At data offset = 0xFFFFFFFF) :
      TurnCases data offset (.ok .terminated)
  | terminator {pos : Nat} {sha384Digest : Bytes}
      (reads : ReadsFields data offset pos sha384Digest)
      (ends : IsTerminator data offset pos) :
      TurnCases data offset (.ok .terminated)
  | record {pos : Nat} {sha384Digest : Bytes}
      (reads : ReadsFields data offset pos sha384Digest)
      (continues : ¬ IsTerminator data offset pos) :
      TurnCases data offset
        (.ok (.record
          { mrIndex := u32At data offset
            eventType := u32At data (offset + 4)
            sha384Digest
            eventData := slice data (pos + 4) (u32At data pos).toNat }
          (pos + 4 + (u32At data pos).toNat)))

theorem parseRecord_cases (data : Bytes) (offset : Nat) :
    TurnCases data offset (parseRecord data offset) := by
  rw [parseRecord]
  split
  · exact .truncated
  · rename_i typeFits
    split
    · rename_i filled
      exact .padding (not_lt.1 typeFits) filled
    · rename_i notFilled
      split
      · exact .truncated
      · rename_i headFits
        split
        · exact .error _
        · rename_i countFits
          split
          · exact .error _
          · exact .truncated
          · rename_i digests
            split
            · exact .truncated
            · dsimp only
              split
              · exact .truncated
              · rename_i dataFits
                have reads :=
                  ReadsFields.mk (not_lt.1 headFits) notFilled
                    (UInt32.not_lt.1 countFits) digests (not_lt.1 dataFits)
                split
                · rename_i ends
                  exact .terminator reads ends
                · rename_i continues
                  exact .record reads continues

/-- The turn over a record whose fields are read. -/
theorem ReadsFields.parseRecord_eq
    {data : Bytes} {offset pos : Nat} {sha384Digest : Bytes}
    (reads : ReadsFields data offset pos sha384Digest) :
    parseRecord data offset =
      if IsTerminator data offset pos then
        .ok .terminated
      else
        .ok (.record
          { mrIndex := u32At data offset
            eventType := u32At data (offset + 4)
            sha384Digest
            eventData := slice data (pos + 4) (u32At data pos).toNat }
          (pos + 4 + (u32At data pos).toNat)) := by
  have headFits := reads.head_fits
  have dataFits := reads.data_fits
  rw [parseRecord, if_neg (by omega), if_neg reads.mrIndex_ne,
    if_neg (by omega), if_neg (UInt32.not_lt.2 reads.count_le), reads.digests]
  dsimp only
  rw [if_neg (by omega), if_neg (by omega)]
  rfl

/-- A record is read whole, so the next one starts behind it and inside. -/
theorem parseRecord_next
    {data : Bytes} {offset next : Nat} {event : CcelEvent}
    (parsed : parseRecord data offset = .ok (.record event next)) :
    offset < next ∧ next ≤ data.length := by
  have turn := parseRecord_cases data offset
  rw [parsed] at turn
  cases turn with
  | record reads continues =>
      have behind := le_of_parseDigests reads.digests
      exact ⟨by omega, reads.data_fits⟩

/-! ## The log -/

/-- Where the loop over the records stops. -/
structure Scan where
  events : List CcelEvent
  offset : Nat
  terminated : Bool
deriving DecidableEq, Repr

/-- The loop in `parse_ccel`. -/
def scanEvents
    (data : Bytes) (offset : Nat) (events : List CcelEvent) :
    Except String Scan :=
  if offset < data.length then
    match _turn : parseRecord data offset with
    | .error message => .error message
    | .ok .truncated => .ok { events, offset, terminated := false }
    | .ok .terminated => .ok { events, offset, terminated := true }
    | .ok (.record event next) =>
        if event.sha384Digest.isEmpty then
          scanEvents data next events
        else if maxEvents ≤ events.length then
          .error s!"CCEL event log exceeds maximum event count ({maxEvents})"
        else
          scanEvents data next (events ++ [event])
  else
    .ok { events, offset, terminated := false }
termination_by data.length - offset
decreasing_by
  all_goals
    have progress := parseRecord_next _turn
    omega

/-- The test behind the loop: a log the loop left inside a record is truncated. -/
def finishScan (data : Bytes) (scan : Scan) :
    Except String (List CcelEvent) :=
  if !scan.terminated && scan.offset < data.length then
    .error s!"CCEL event log truncated at offset 0x{lowerHex 0 scan.offset} ({scan.events.length} events parsed before truncation)"
  else
    .ok scan.events

theorem finishScan_eq_ok_iff
    {data : Bytes} {scan : Scan} {events : List CcelEvent} :
    finishScan data scan = .ok events ↔
      (scan.terminated = true ∨ data.length ≤ scan.offset) ∧
        scan.events = events := by
  rw [finishScan]
  cases terminated : scan.terminated with
  | true => simp
  | false =>
      by_cases inside : scan.offset < data.length
      · simp [inside]
      · simp [inside, not_lt.1 inside]

/-- Parse a CCEL binary into its events; a truncated log is an error. -/
def parseCcel (data : Bytes) : Except String (List CcelEvent) :=
  if data.length < 32 then
    .error s!"CCEL data too short: {data.length} bytes"
  else if u32At data 4 ≠ 3 then
    .error s!"Invalid Spec ID Event: expected EV_NO_ACTION (3), got 0x{lowerHex 8 (u32At data 4).toNat}"
  else
    let eventSize := (u32At data 28).toNat
    let offset := 32 + eventSize
    if data.length < offset then
      .error s!"Spec ID Event size ({eventSize}) exceeds CCEL data ({data.length})"
    else
      scanEvents data offset [] >>= finishScan data

/-! ## Replay -/

/-- The register an event of this `mr_index` extends. -/
def rtmrIndex (mrIndex : UInt32) : Option (Fin 4) :=
  if mrIndex = 1 then some 0
  else if mrIndex = 2 then some 1
  else if mrIndex = 3 then some 2
  else if mrIndex = 4 then some 3
  else none

section

variable (sha384 : Bytes → Block 48)

/-- Replay the events over the four zeroed registers. -/
def replayRtmrs (events : List CcelEvent) : Fin 4 → Block 48 :=
  events.foldl (fun rtmrs event =>
    match rtmrIndex event.mrIndex with
    | some index =>
        Function.update rtmrs index
          (sha384 ((rtmrs index).bytes ++ event.sha384Digest))
    | none => rtmrs) fun _ => Block.zero 48

end

end Confos.Tdx.Ccel
