import Confos.Kernel.MeasurementRegisters

/-!
# What the measurement registers guarantee

The log memory is the list of successful extends and the registers are its
replay.  A report commits to a prefix of that list, and a log read returns one,
so a verifier that replays as many entries as the report counts, from any read
made after the report was sent, arrives at the registers in the report.
-/

namespace Confos.Kernel.MeasurementInvariant

open Confos.Library.ByteStrings
open Confos.Library.Machines
open Confos.Library.Registers
open Confos.Kernel.MeasurementRegisters

/-! ## The verifier -/

def decodeEvent : Bytes → Option SnpMrEvent
  | [] => none
  | index :: digest =>
      if fits : index.toNat < 16 ∧ digest.length = 48 then
        some ⟨⟨index.toNat, fits.1⟩, ⟨digest, fits.2⟩⟩
      else
        none

/-- The first `count` entries of a log read. -/
def decodeLog : Nat → Bytes → Option (List SnpMrEvent)
  | 0, _ => some []
  | count + 1, bytes =>
      match decodeEvent (bytes.take 49), decodeLog count (bytes.drop 49) with
      | some event, some events => some (event :: events)
      | _, _ => none

theorem decodeEvent_encodeEvent (event : SnpMrEvent) :
    decodeEvent (encodeEvent event) = some event := by
  have small : event.index.val < 2 ^ 8 := by
    exact lt_trans event.index.isLt (by decide)
  have index : (UInt8.ofNat event.index.val).toNat = event.index.val :=
    UInt8.toNat_ofNat_of_lt' small
  rw [encodeEvent, decodeEvent, dif_pos]
  · simp only [index]
  · rw [index]
    exact ⟨event.index.isLt, event.digest.length_eq⟩

/-- A verifier recovers the entries in front of whatever follows them. -/
theorem decodeLog_encodeLog (log : List SnpMrEvent) (rest : Bytes) :
    decodeLog log.length (encodeLog log ++ rest) = some log := by
  induction log with
  | nil => rfl
  | cons event log induction =>
      have front :
          encodeLog (event :: log) ++ rest =
            encodeEvent event ++ (encodeLog log ++ rest) := by
        rw [encodeLog, List.flatMap_cons, List.append_assoc]
        rfl
      rw [List.length_cons, decodeLog, front,
        List.take_left' (length_encodeEvent event),
        List.drop_left' (length_encodeEvent event),
        decodeEvent_encodeEvent, induction]

section

variable (sha384 : Bytes → Digest)

/-- The registers a log replays to. -/
def registersAfter (log : List SnpMrEvent) : MrIndex → Digest :=
  replay (fun event => some event.index) (extendDigest sha384)
    (fun _ => Block.zero 48) log

/-- The event count a report states. -/
def statedCount (request : GuestReq) : Nat :=
  ofLeBytes (request.reqBuf.take 4)

/-! ## What the steps keep -/

def GuestReq.IsReport (request : GuestReq) : Prop :=
  request.msgType = .reportReq ∧ request.reqBuf.length = snpReportReqSize

/-- The request that goes out for a placed one, committed to a log. -/
def committedRequest (log : List SnpMrEvent) (placed : GuestReq) : GuestReq :=
  placed.setUserData
    (commitment sha384 log.length (registersAfter sha384 log)
      placed.userData)

structure LogConsistent (mr : SnpMr) (history : List SnpMrEvent) : Prop where
  regs : mr.regs = registersAfter sha384 history
  entries : mr.entries = history
  bounded : mr.eventCount ≤ snpMrLogMax

/-- What a call has done to its request so far. -/
def CallConsistent
    (history : List SnpMrEvent) (placed request : GuestReq) :
    Option Call → Prop
  | none => request = placed
  | some .direct => request = placed ∧ placed.msgType ≠ .reportReq
  | some (.sentDirect _) => request = placed
  | some (.saved userData) =>
      request = placed ∧ GuestReq.IsReport placed ∧
        userData = placed.userData
  | some (.committed userData log) =>
      log <+: history ∧ request = committedRequest sha384 log placed ∧
        GuestReq.IsReport placed ∧ userData = placed.userData
  | some (.sentReport userData _) =>
      userData = placed.userData ∧
        ∃ front, front.length = snpReportUserDataSize ∧
          request = placed.setUserData front

def SendConsistent (history : List SnpMrEvent) (send : Send) : Prop :=
  match send.committed with
  | none => send.request = send.placed ∧ send.placed.msgType ≠ .reportReq
  | some log =>
      log <+: history ∧
        send.request = committedRequest sha384 log send.placed ∧
          GuestReq.IsReport send.placed

structure ReadsConsistent (system : System) : Prop where
  ordered :
    system.reads.Pairwise fun earlier later => earlier.log <+: later.log
  counted :
    ∀ read ∈ system.reads,
      read.entries = read.log.length ∧ read.log <+: system.history ∧
        read.sendsBefore ≤ system.sends.length
  afterSends :
    ∀ read ∈ system.reads, ∀ send ∈ system.sends.take read.sendsBefore,
      ∀ log, send.committed = some log → log <+: read.log
  copied :
    ∀ delivery ∈ system.delivered, ∃ read,
      system.reads[delivery.1]? = some read ∧
        delivery.2 = slice (encodeLog read.log) read.off read.count

structure Consistent (system : System) : Prop where
  log : LogConsistent sha384 system.mr system.history
  calls :
    ∀ buffer,
      CallConsistent sha384 system.history (system.placed buffer)
        (system.requests buffer) (system.calls buffer)
  sends : ∀ send ∈ system.sends, SendConsistent sha384 system.history send
  reads : ReadsConsistent system

variable {sha384}

theorem CallConsistent.grow
    {history grown : List SnpMrEvent} {placed request : GuestReq}
    {call : Option Call}
    (consistent : CallConsistent sha384 history placed request call)
    (grows : history <+: grown) :
    CallConsistent sha384 grown placed request call := by
  rcases call with _ | call
  · exact consistent
  · cases call with
    | committed userData log =>
        rcases consistent with ⟨isPrefix, rest⟩
        exact ⟨isPrefix.trans grows, rest⟩
    | direct => exact consistent
    | sentDirect rc => exact consistent
    | saved userData => exact consistent
    | sentReport userData rc => exact consistent

theorem SendConsistent.grow
    {history grown : List SnpMrEvent} {send : Send}
    (consistent : SendConsistent sha384 history send)
    (grows : history <+: grown) :
    SendConsistent sha384 grown send := by
  rcases send with ⟨request, placed, _ | log⟩
  · exact consistent
  · rcases consistent with ⟨isPrefix, rest⟩
    exact ⟨isPrefix.trans grows, rest⟩

theorem LogConsistent.length_eq
    {mr : SnpMr} {history : List SnpMrEvent}
    (consistent : LogConsistent sha384 mr history) :
    mr.eventCount = history.length := by
  rw [← consistent.entries, SnpMr.entries, List.length_map,
    List.length_range]

/-- An extend either finds the log full or adds its entry to log and register. -/
theorem LogConsistent.extend
    {mr : SnpMr} {history : List SnpMrEvent}
    (consistent : LogConsistent sha384 mr history)
    (index : MrIndex) (digest : Digest) :
    (mr.eventCount = snpMrLogMax ∧
        snpMrExtend sha384 mr index digest = (enospc, mr)) ∨
      ∃ extended,
        snpMrExtend sha384 mr index digest = (0, extended) ∧
          LogConsistent sha384 extended
            (history ++ [⟨index, digest⟩]) := by
  by_cases full : mr.eventCount = snpMrLogMax
  · left
    exact ⟨full, by rw [snpMrExtend, if_pos full]⟩
  · right
    refine ⟨_, by rw [snpMrExtend, if_neg full], ?_, ?_, ?_⟩
    · rw [registersAfter, replay_concat]
      change _ = extendRegister _ _ (registersAfter sha384 history) _
      rw [← consistent.regs]
      rfl
    · rw [← consistent.entries, SnpMr.entries, SnpMr.entries,
        List.range_succ, List.map_append, List.map_singleton]
      dsimp only
      rw [Function.update_self]
      congr 1
      apply List.map_congr_left
      intro position below
      apply Function.update_of_ne
      exact (List.mem_range.1 below).ne
    · have bounded := consistent.bounded
      change mr.eventCount + 1 ≤ snpMrLogMax
      omega

theorem setUserData_setUserData
    (request : GuestReq) {front userData : Bytes}
    (length : front.length = snpReportUserDataSize) :
    (request.setUserData front).setUserData userData =
      request.setUserData userData := by
  rw [GuestReq.setUserData, GuestReq.setUserData, GuestReq.setUserData]
  simp only [← length, List.drop_left]

theorem setUserData_userData (request : GuestReq) :
    request.setUserData request.userData = request := by
  rw [GuestReq.setUserData, GuestReq.userData, List.take_append_drop]

theorem length_committedFront
    (log : List SnpMrEvent) (placed : GuestReq) :
    (commitment sha384 log.length (registersAfter sha384 log)
      placed.userData).length = snpReportUserDataSize :=
  length_commitment ..

/-- The entries below the count a read took are the log at that time. -/
theorem LogConsistent.readLog_eq
    {mr : SnpMr} {history log : List SnpMrEvent}
    (consistent : LogConsistent sha384 mr history)
    (isPrefix : log <+: history) (off count : Nat) :
    mr.readLog log.length off count = slice (encodeLog log) off count := by
  have short : log.length ≤ mr.eventCount := by
    rw [consistent.length_eq]
    exact isPrefix.length_le
  have counted :
      (List.range log.length).map mr.log = mr.entries.take log.length := by
    rw [SnpMr.entries, ← List.map_take, List.take_range,
      Nat.min_eq_left short]
  rw [SnpMr.readLog, counted, consistent.entries,
    ← List.prefix_iff_eq_take.1 isPrefix]
  rfl

/-! ## Every step keeps it -/

section

variable {system : System}

theorem ReadsConsistent.grow
    {grown : System}
    (consistent : ReadsConsistent system)
    (history : system.history <+: grown.history)
    (sends : system.sends <+: grown.sends)
    (reads : grown.reads = system.reads)
    (delivered : grown.delivered = system.delivered) :
    ReadsConsistent grown where
  ordered := by
    rw [reads]
    exact consistent.ordered
  counted := by
    intro read member
    rw [reads] at member
    rcases consistent.counted read member with ⟨entries, isPrefix, before⟩
    exact
      ⟨entries, isPrefix.trans history, before.trans sends.length_le⟩
  afterSends := by
    intro read member send sent
    rw [reads] at member
    rcases consistent.counted read member with ⟨-, -, before⟩
    apply consistent.afterSends read member send
    rcases sends with ⟨more, same⟩
    rwa [← same, List.take_append_of_le_length before] at sent
  copied := by
    intro delivery member
    rw [delivered] at member
    rw [reads]
    exact consistent.copied delivery member

/-- A step that concerns one buffer only. -/
theorem Consistent.update_buffer
    {changed : System}
    (consistent : Consistent sha384 system) (buffer : Nat)
    (mr : changed.mr = system.mr)
    (history : changed.history = system.history)
    (elsewhere :
      ∀ other, other ≠ buffer →
        changed.placed other = system.placed other ∧
          changed.requests other = system.requests other ∧
            changed.calls other = system.calls other)
    (here :
      CallConsistent sha384 system.history (changed.placed buffer)
        (changed.requests buffer) (changed.calls buffer))
    (sends :
      ∀ send ∈ changed.sends, SendConsistent sha384 system.history send)
    (moreSends : system.sends <+: changed.sends)
    (reads : changed.reads = system.reads)
    (delivered : changed.delivered = system.delivered) :
    Consistent sha384 changed where
  log := by
    rw [mr, history]
    exact consistent.log
  calls := by
    intro other
    rw [history]
    by_cases same : other = buffer
    · rw [same]
      exact here
    · rcases elsewhere other same with ⟨placed, request, call⟩
      rw [placed, request, call]
      exact consistent.calls other
  sends := by
    rw [history]
    exact sends
  reads :=
    consistent.reads.grow (history ▸ List.prefix_rfl) moreSends reads
      delivered

theorem Consistent.extend
    (consistent : Consistent sha384 system)
    (index : MrIndex) (digest : Digest) :
    Consistent sha384 (system.extend sha384 index digest) := by
  rcases consistent.log.extend index digest with
    ⟨-, full⟩ | ⟨extended, added, log⟩
  · have unchanged : system.extend sha384 index digest = system := by
      rw [System.extend, full]
      rfl
    rw [unchanged]
    exact consistent
  · have changed :
        system.extend sha384 index digest =
          { system with
            mr := extended
            history := system.history ++ [⟨index, digest⟩] } := by
      rw [System.extend, added]
      rfl
    have grows : system.history <+: system.history ++ [⟨index, digest⟩] :=
      List.prefix_append ..
    rw [changed]
    exact
      { log
        calls := fun buffer => (consistent.calls buffer).grow grows
        sends := fun send member => (consistent.sends send member).grow grows
        reads := consistent.reads.grow grows List.prefix_rfl rfl rfl }

theorem Consistent.place
    {buffer : Nat}
    (consistent : Consistent sha384 system)
    (idle : system.calls buffer = none) (request : GuestReq) :
    Consistent sha384
      { system with
        requests := Function.update system.requests buffer request
        placed := Function.update system.placed buffer request } := by
  refine
    consistent.update_buffer buffer rfl rfl ?_ ?_ consistent.sends
      List.prefix_rfl rfl rfl
  · intro other different
    exact
      ⟨Function.update_of_ne different .., Function.update_of_ne different ..,
        rfl⟩
  · simp only [Function.update_self, idle]
    rfl

theorem Consistent.call
    {buffer : Nat}
    (consistent : Consistent sha384 system)
    (idle : system.calls buffer = none) :
    Consistent sha384 (system.call true buffer) := by
  have placed := consistent.calls buffer
  rw [idle] at placed
  change system.requests buffer = system.placed buffer at placed
  rw [System.call]
  split
  · rename_i direct
    refine
      consistent.update_buffer buffer rfl rfl ?_ ?_ consistent.sends
        List.prefix_rfl rfl rfl
    · intro other different
      exact ⟨rfl, rfl, Function.update_of_ne different ..⟩
    · simp only [Function.update_self]
      refine ⟨placed, ?_⟩
      rw [← placed]
      simpa using direct
  · rename_i report
    split
    · exact
        { log := consistent.log
          calls := consistent.calls
          sends := consistent.sends
          reads :=
            consistent.reads.grow List.prefix_rfl List.prefix_rfl rfl rfl }
    · rename_i sized
      refine
        consistent.update_buffer buffer rfl rfl ?_ ?_ consistent.sends
          List.prefix_rfl rfl rfl
      · intro other different
        exact ⟨rfl, rfl, Function.update_of_ne different ..⟩
      · simp only [Function.update_self]
        refine ⟨placed, ?_, ?_⟩
        · rw [← placed]
          exact ⟨by simpa using report, by simpa using sized⟩
        · rw [placed]

theorem Consistent.commit
    {buffer : Nat} {userData : Bytes}
    (consistent : Consistent sha384 system)
    (saved : system.calls buffer = some (.saved userData)) :
    Consistent sha384 (system.commit sha384 buffer userData) := by
  have call := consistent.calls buffer
  rw [saved] at call
  rcases call with ⟨placed, isReport, copy⟩
  refine
    consistent.update_buffer buffer rfl rfl ?_ ?_ consistent.sends
      List.prefix_rfl rfl rfl
  · intro other different
    exact
      ⟨rfl, Function.update_of_ne different ..,
        Function.update_of_ne different ..⟩
  · simp only [System.commit, Function.update_self]
    refine ⟨List.prefix_rfl, ?_, isReport, copy⟩
    rw [placed, snpMrCommit, consistent.log.length_eq, consistent.log.regs]
    rfl

/-- A request goes out; the call waits for the restore. -/
theorem Consistent.send
    (consistent : Consistent sha384 system)
    {buffer : Nat} {committed : Option (List SnpMrEvent)} {next : Call}
    (sent :
      SendConsistent sha384 system.history
        { request := system.requests buffer
          placed := system.placed buffer
          committed })
    (waits :
      CallConsistent sha384 system.history (system.placed buffer)
        (system.requests buffer) (some next)) :
    Consistent sha384 (system.send buffer committed next) := by
  refine
    consistent.update_buffer buffer rfl rfl ?_ ?_ ?_
      (List.prefix_append ..) rfl rfl
  · intro other different
    exact ⟨rfl, rfl, Function.update_of_ne different ..⟩
  · simp only [System.send, Function.update_self]
    exact waits
  · intro send member
    rcases List.mem_append.1 member with earlier | last
    · exact consistent.sends send earlier
    · cases List.mem_singleton.1 last
      exact sent

theorem Consistent.return
    {buffer : Nat} {rc : Int}
    (consistent : Consistent sha384 system)
    (sent : system.calls buffer = some (.sentDirect rc)) :
    Consistent sha384 (system.return buffer rc) := by
  have call := consistent.calls buffer
  rw [sent] at call
  refine
    consistent.update_buffer buffer rfl rfl ?_ ?_ consistent.sends
      List.prefix_rfl rfl rfl
  · intro other different
    exact ⟨rfl, rfl, Function.update_of_ne different ..⟩
  · simp only [System.return, Function.update_self]
    exact call

/-- The copy back gives the caller its own bytes, whatever went out. -/
theorem Consistent.restore
    {buffer : Nat} {userData : Bytes} {rc : Int}
    (consistent : Consistent sha384 system)
    (sent : system.calls buffer = some (.sentReport userData rc)) :
    Consistent sha384 ((system.restore buffer userData).return buffer rc) := by
  have call := consistent.calls buffer
  rw [sent] at call
  rcases call with ⟨rfl, front, length, request⟩
  refine
    consistent.update_buffer buffer rfl rfl ?_ ?_ consistent.sends
      List.prefix_rfl rfl rfl
  · intro other different
    exact
      ⟨rfl, Function.update_of_ne different ..,
        Function.update_of_ne different ..⟩
  · simp only [System.return, System.restore, Function.update_self]
    rw [request, setUserData_setUserData _ length, setUserData_userData]
    rfl

/-- A read that takes the lock now sees every entry counted so far. -/
theorem Consistent.lockLog
    (consistent : Consistent sha384 system) (off count : Nat) :
    Consistent sha384
      { system with
        reads :=
          system.reads ++
            [{ off, count
               entries := system.mr.eventCount
               log := system.history
               sendsBefore := system.sends.length }] } := by
  have reads := consistent.reads
  refine
    { log := consistent.log
      calls := consistent.calls
      sends := consistent.sends
      reads := ⟨?_, ?_, ?_, ?_⟩ }
  · apply List.pairwise_append.2
    refine ⟨reads.ordered, List.pairwise_singleton _ _, ?_⟩
    intro earlier member later last
    cases List.mem_singleton.1 last
    exact (reads.counted earlier member).2.1
  · intro read member
    rcases List.mem_append.1 member with earlier | last
    · exact reads.counted read earlier
    · cases List.mem_singleton.1 last
      exact ⟨consistent.log.length_eq, List.prefix_rfl, le_rfl⟩
  · intro read member send sent log committed
    rcases List.mem_append.1 member with earlier | last
    · exact reads.afterSends read earlier send sent log committed
    · cases List.mem_singleton.1 last
      have sound := consistent.sends send (List.mem_of_mem_take sent)
      rw [SendConsistent, committed] at sound
      exact sound.1
  · intro delivery member
    rcases reads.copied delivery member with ⟨read, started, data⟩
    refine ⟨read, ?_, data⟩
    rw [List.getElem?_append_left (List.getElem?_eq_some_iff.1 started).1]
    exact started

theorem Consistent.copyLog
    (consistent : Consistent sha384 system)
    {position : Nat} {started : LogRead}
    (locked : system.reads[position]? = some started) :
    Consistent sha384
      { system with
        delivered :=
          system.delivered ++
            [(position,
              system.mr.readLog started.entries started.off
                started.count)] } := by
  have reads := consistent.reads
  refine
    { log := consistent.log
      calls := consistent.calls
      sends := consistent.sends
      reads :=
        ⟨reads.ordered, reads.counted, reads.afterSends, ?_⟩ }
  intro delivery member
  rcases List.mem_append.1 member with earlier | last
  · exact reads.copied delivery earlier
  · cases List.mem_singleton.1 last
    rcases reads.counted started (List.mem_of_getElem? locked) with
      ⟨entries, isPrefix, -⟩
    refine ⟨started, locked, ?_⟩
    rw [entries]
    exact consistent.log.readLog_eq isPrefix started.off started.count

/-- One step of any caller keeps the system consistent. -/
theorem Consistent.step
    {action : Action} {after : System}
    (consistent : Consistent sha384 system)
    (stepped : system.step sha384 true action = some after) :
    Consistent sha384 after := by
  cases action with
  | extend index digest =>
      cases stepped
      exact consistent.extend index digest
  | place buffer request =>
      rw [System.step] at stepped
      split at stepped
      · rename_i idle
        cases stepped
        exact consistent.place idle request
      · cases stepped
  | call buffer =>
      rw [System.step] at stepped
      split at stepped
      · rename_i idle
        cases stepped
        exact consistent.call idle
      · cases stepped
  | commit buffer =>
      rw [System.step] at stepped
      split at stepped
      · rename_i userData saved
        cases stepped
        exact consistent.commit saved
      · cases stepped
  | send buffer rc =>
      rw [System.step] at stepped
      have call := consistent.calls buffer
      split at stepped
      · rename_i direct
        cases stepped
        rw [direct] at call
        exact consistent.send call call.1
      · rename_i userData log committed
        cases stepped
        rw [committed] at call
        rcases call with ⟨isPrefix, request, isReport, copy⟩
        exact
          consistent.send ⟨isPrefix, request, isReport⟩
            ⟨copy, _, length_committedFront log _, request⟩
      · cases stepped
  | finish buffer =>
      rw [System.step] at stepped
      split at stepped
      · rename_i rc sent
        cases stepped
        exact consistent.return sent
      · rename_i userData rc sent
        cases stepped
        exact consistent.restore sent
      · cases stepped
  | lockLog off count =>
      cases stepped
      exact consistent.lockLog off count
  | copyLog position =>
      rw [System.step] at stepped
      split at stepped
      · rename_i started locked
        split at stepped
        · cases stepped
        · cases stepped
          exact consistent.copyLog locked
      · cases stepped

end

theorem Consistent.initial (requests : Nat → GuestReq) :
    Consistent sha384 (System.initial requests) where
  log := ⟨rfl, rfl, Nat.zero_le _⟩
  calls := fun _ => rfl
  sends := by
    intro send member
    cases member
  reads :=
    { ordered := List.Pairwise.nil
      counted := by
        intro read member
        cases member
      afterSends := by
        intro read member
        cases member
      copied := by
        intro delivery member
        cases member }

theorem consistent_of_run
    {requests : Nat → GuestReq} {actions : List Action} {system : System}
    (ran : runSystem sha384 true requests actions = some system) :
    Consistent sha384 system :=
  run_invariant (Consistent sha384) (Consistent.initial requests)
    (fun _ _ _ consistent stepped => consistent.step stepped) ran

/-! ## The guarantees -/

theorem encodeLog_mono
    {shorter longer : List SnpMrEvent}
    (isPrefix : shorter <+: longer) :
    encodeLog shorter <+: encodeLog longer := by
  rcases isPrefix with ⟨rest, rfl⟩
  rw [encodeLog, encodeLog, List.flatMap_append]
  exact List.prefix_append ..

theorem length_encodeLog (log : List SnpMrEvent) :
    (encodeLog log).length = 49 * log.length := by
  induction log with
  | nil => rfl
  | cons event log induction =>
      rw [encodeLog, List.flatMap_cons, List.length_append,
        length_encodeEvent, List.length_cons]
      change 49 + (encodeLog log).length = _
      omega

/-- Reads in lock order return logs in prefix order. -/
theorem ReadsConsistent.log_mono
    {system : System}
    (consistent : ReadsConsistent system)
    {first second : Nat} {earlier later : LogRead}
    (firstRead : system.reads[first]? = some earlier)
    (secondRead : system.reads[second]? = some later)
    (order : first ≤ second) :
    earlier.log <+: later.log := by
  rcases List.getElem?_eq_some_iff.1 firstRead with ⟨firstBound, rfl⟩
  rcases List.getElem?_eq_some_iff.1 secondRead with ⟨secondBound, rfl⟩
  rcases Nat.lt_or_eq_of_le order with before | rfl
  · exact
      List.pairwise_iff_getElem.1 consistent.ordered first second firstBound
        secondBound before
  · exact List.prefix_rfl

/-- The count at the head of a committed request. -/
theorem statedCount_committedRequest
    {log : List SnpMrEvent} (placed : GuestReq)
    (bounded : log.length ≤ snpMrLogMax) :
    statedCount (committedRequest sha384 log placed) = log.length := by
  have small : log.length < 256 ^ 4 :=
    lt_of_le_of_lt bounded (by decide)
  rw [statedCount, committedRequest, GuestReq.setUserData, commitment,
    header]
  simp only [List.append_assoc]
  rw [List.take_left' (length_leBytes 4 _), ofLeBytes_leBytes_of_lt small]

/-- A whole read made after a report was sent starts with the log it counts. -/
theorem decodeLog_of_later_read
    {system : System} (consistent : Consistent sha384 system)
    {position : Nat} {send : Send} {log : List SnpMrEvent}
    (sent : system.sends[position]? = some send)
    (committed : send.committed = some log)
    {delivery : Nat × Bytes} {read : LogRead}
    (delivered : delivery ∈ system.delivered)
    (started : system.reads[delivery.1]? = some read)
    (later : position < read.sendsBefore)
    (start : read.off = 0)
    (whole : 49 * read.entries ≤ read.count) :
    decodeLog log.length delivery.2 = some log := by
  have member := List.mem_of_getElem? started
  rcases consistent.reads.counted read member with ⟨entries, -, -⟩
  have before : send ∈ system.sends.take read.sendsBefore := by
    apply List.mem_of_getElem?
    rw [List.getElem?_take_of_lt later]
    exact sent
  have isPrefix :=
    consistent.reads.afterSends read member send before log committed
  rcases consistent.reads.copied delivery delivered with
    ⟨same, startedSame, data⟩
  rw [started] at startedSame
  cases startedSame
  rcases encodeLog_mono isPrefix with ⟨rest, encoded⟩
  have everything : (encodeLog read.log).length ≤ read.count := by
    rw [length_encodeLog, ← entries]
    exact whole
  rw [data, start, slice, List.drop_zero,
    List.take_of_length_le everything, ← encoded]
  exact decodeLog_encodeLog log rest

variable (sha384)

/--
After every interleaving of extends, requests, resends and log reads: each
register is the replay of its log entries; the count is the number of
successful extends, at most 4096, and at 4096 an extend changes nothing; log
reads extend one another; a report goes out committed to a log prefix, over the
bytes its caller placed, that every later whole read starts with; every other
message goes out as placed; and a caller that is not in a call finds its own
bytes in its buffer.
-/
theorem measurement_registers_invariant
    {requests : Nat → GuestReq} {actions : List Action} {system : System}
    (ran : runSystem sha384 true requests actions = some system) :
    (∀ index,
      system.mr.regs index =
        (system.mr.entries.filter (·.index = index)).foldl
          (extendDigest sha384) (Block.zero 48)) ∧
      (system.mr.entries = system.history ∧
        system.mr.eventCount = system.history.length ∧
          system.mr.eventCount ≤ snpMrLogMax) ∧
      (system.mr.eventCount = snpMrLogMax →
        ∀ index digest,
          snpMrExtend sha384 system.mr index digest = (enospc, system.mr)) ∧
      (∀ earlier ∈ system.delivered, ∀ later ∈ system.delivered,
        ∀ first second,
          system.reads[earlier.1]? = some first →
            system.reads[later.1]? = some second →
              earlier.1 ≤ later.1 → first.off = second.off →
                first.count ≤ second.count → earlier.2 <+: later.2) ∧
      (∀ position send,
        system.sends[position]? = some send →
          send.placed.msgType = .reportReq →
            ∃ log, log <+: system.history ∧
              send.request = committedRequest sha384 log send.placed ∧
                statedCount send.request = log.length ∧
                  ∀ delivery ∈ system.delivered, ∀ read,
                    system.reads[delivery.1]? = some read →
                      position < read.sendsBefore → read.off = 0 →
                        49 * read.entries ≤ read.count →
                          decodeLog (statedCount send.request) delivery.2 =
                            some log) ∧
      (∀ send ∈ system.sends,
        send.placed.msgType ≠ .reportReq → send.request = send.placed) ∧
      ∀ buffer,
        system.calls buffer = none →
          system.requests buffer = system.placed buffer := by
  have consistent := consistent_of_run ran
  refine ⟨?_, ?_, ?_, ?_, ?_, ?_, ?_⟩
  · intro index
    rw [consistent.log.regs, registersAfter, replay_apply,
      consistent.log.entries]
    simp only [Option.some.injEq]
  · exact
      ⟨consistent.log.entries, consistent.log.length_eq,
        consistent.log.bounded⟩
  · intro full index digest
    rw [snpMrExtend, if_pos full]
  · intro earlier earlierMember later laterMember first second firstRead
      secondRead order start sizes
    have logs :=
      consistent.reads.log_mono firstRead secondRead order
    rcases consistent.reads.copied earlier earlierMember with
      ⟨_, firstSame, firstData⟩
    rcases consistent.reads.copied later laterMember with
      ⟨_, secondSame, secondData⟩
    rw [firstRead] at firstSame
    rw [secondRead] at secondSame
    cases firstSame
    cases secondSame
    rw [firstData, secondData, start]
    exact slice_mono (encodeLog_mono logs) second.off sizes
  · intro position send sent report
    have sound := consistent.sends send (List.mem_of_getElem? sent)
    cases committed : send.committed with
    | none =>
        rw [SendConsistent, committed] at sound
        exact absurd report sound.2
    | some log =>
        rw [SendConsistent, committed] at sound
        rcases sound with ⟨isPrefix, request, -⟩
        have bounded : log.length ≤ snpMrLogMax := by
          have shorter := isPrefix.length_le
          have all := consistent.log.bounded
          rw [consistent.log.length_eq] at all
          exact shorter.trans all
        have count : statedCount send.request = log.length := by
          rw [request]
          exact statedCount_committedRequest send.placed bounded
        refine ⟨log, isPrefix, request, count, ?_⟩
        intro delivery delivered read started later start whole
        rw [count]
        exact
          decodeLog_of_later_read consistent sent committed delivered started
            later start whole
  · intro send member other
    have sound := consistent.sends send member
    cases committed : send.committed with
    | none =>
        rw [SendConsistent, committed] at sound
        exact sound.1
    | some log =>
        rw [SendConsistent, committed] at sound
        exact absurd sound.2.2.1 other
  · intro buffer idle
    have call := consistent.calls buffer
    rw [idle] at call
    exact call

end

/-! ## A request that is resent -/

instance neZero_mrCount : NeZero 16 :=
  ⟨Nat.succ_ne_zero 15⟩

/-- A request sent twice, with an extend while it was under way. -/
def resendActions : List Action :=
  [.extend 3 (Block.zero 48), .call 0, .commit 0, .extend 5 (Block.zero 48),
    .send 0 (-5), .finish 0, .call 0, .commit 0, .send 0 0, .finish 0,
    .lockLog 0 98, .copyLog 0]

def reportRequest : GuestReq where
  msgType := .reportReq
  reqBuf := List.replicate 96 7

theorem measurement_registers_invariant_resend :
    ∃ system,
      runSystem (fun _ => Block.zero 48) true (fun _ => reportRequest)
          resendActions = some system ∧
        system.sends.length = 2 ∧ system.mr.eventCount = 2 ∧
          system.mr.entries = system.history ∧
            system.requests 0 = system.placed 0 := by
  have resent :
      ∃ system,
        runSystem (fun _ => Block.zero 48) true (fun _ => reportRequest)
            resendActions = some system ∧
          system.sends.length = 2 ∧ system.mr.eventCount = 2 ∧
            system.calls 0 = none :=
    ⟨_, rfl, rfl, rfl, rfl⟩
  rcases resent with ⟨system, ran, sends, count, idle⟩
  rcases measurement_registers_invariant (fun _ => Block.zero 48) ran with
    ⟨-, ⟨entries, -⟩, -, -, -, -, restored⟩
  exact ⟨system, ran, sends, count, entries, restored 0 idle⟩

end Confos.Kernel.MeasurementInvariant
