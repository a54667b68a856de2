import Confos.Library.ByteStrings
import Confos.Library.Machines
import Confos.Library.Registers

/-!
# The measurement registers of the sev-guest driver

Sixteen SHA-384 registers, the bounded log of their extends, and the report
request path that commits to both.  A section under `snp_mr_lock` is one step
of the system and everything a call does between two such sections is a step
of its own, so the steps of different callers interleave freely.  A caller
owns its request buffer: it fills it and calls with it, one call at a time.

The fields below the comment line of `System` are not in the kernel.  They
record what a caller placed, which extends succeeded, and what was sent, read
and returned.
-/

namespace Confos.Kernel.MeasurementRegisters

open Confos.Library.ByteStrings
open Confos.Library.Machines
open Confos.Library.Registers

/-! ## The static variables and the functions under the lock -/

def snpMrCount : Nat := 16
def snpMrLogMax : Nat := 4096
def snpReportUserDataSize : Nat := 64
def enospc : Int := -28
def einval : Int := -22

abbrev MrIndex := Fin 16
abbrev Digest := Block 48

/-- One logged extend. -/
structure SnpMrEvent where
  index : MrIndex
  digest : Digest
deriving DecidableEq

/-- The registers, the log memory and the event count. -/
structure SnpMr where
  regs : MrIndex → Digest
  log : Nat → SnpMrEvent
  eventCount : Nat

/-- The zeroed static state. -/
def SnpMr.genesis : SnpMr where
  regs := fun _ => Block.zero 48
  log := fun _ => { index := 0, digest := Block.zero 48 }
  eventCount := 0

/-- The entries of the log memory below the event count. -/
def SnpMr.entries (mr : SnpMr) : List SnpMrEvent :=
  (List.range mr.eventCount).map mr.log

/-- The 49 packed bytes of an entry. -/
def encodeEvent (event : SnpMrEvent) : Bytes :=
  UInt8.ofNat event.index.val :: event.digest.bytes

@[simp]
theorem length_encodeEvent (event : SnpMrEvent) :
    (encodeEvent event).length = 49 := by
  simp [encodeEvent]

def encodeLog (log : List SnpMrEvent) : Bytes :=
  log.flatMap encodeEvent

/-- `memory_read_from_buffer`: at most `count` bytes from `off` on. -/
def memoryReadFromBuffer (count off : Nat) (source : Bytes) : Bytes :=
  slice source off count

/-- The copy in `snp_mr_read_log`, of the entries counted under the lock. -/
def SnpMr.readLog (mr : SnpMr) (entries off count : Nat) : Bytes :=
  memoryReadFromBuffer count off
    (encodeLog ((List.range entries).map mr.log))

section

variable (sha384 : Bytes → Digest)

def extendDigest (current : Digest) (event : SnpMrEvent) : Digest :=
  sha384 (current.bytes ++ event.digest.bytes)

def snpMrExtend (mr : SnpMr) (index : MrIndex) (digest : Digest) :
    Int × SnpMr :=
  if mr.eventCount = snpMrLogMax then
    (enospc, mr)
  else
    let event : SnpMrEvent := { index, digest }
    (0,
      { regs :=
          Function.update mr.regs index
            (extendDigest sha384 (mr.regs index) event)
        log := Function.update mr.log mr.eventCount event
        eventCount := mr.eventCount + 1 })

/-- The event count in a report: little-endian, padded to 16 bytes. -/
def header (count : Nat) : Bytes :=
  leBytes 4 count ++ List.replicate 12 0

@[simp]
theorem length_header (count : Nat) : (header count).length = 16 := by
  simp [header]

/-- `H || SHA-384(tag || H || registers || user data)`. -/
def commitment (count : Nat) (regs : MrIndex → Digest) (userData : Bytes) :
    Bytes :=
  header count ++
    (sha384
      (utf8Bytes "snp-kmr-v1" ++ header count ++
        (List.finRange snpMrCount).flatMap (fun index => (regs index).bytes) ++
          userData)).bytes

@[simp]
theorem length_commitment
    (count : Nat) (regs : MrIndex → Digest) (userData : Bytes) :
    (commitment sha384 count regs userData).length =
      snpReportUserDataSize := by
  simp [commitment, snpReportUserDataSize]

def snpMrCommit (mr : SnpMr) (userData : Bytes) : Bytes :=
  commitment sha384 mr.eventCount mr.regs userData

end

/-! ## Requests -/

inductive MsgType where
  | reportReq
  | other (value : UInt8)
deriving DecidableEq, Repr

/-- A guest request; its size is that of its buffer. -/
structure GuestReq where
  msgType : MsgType
  reqBuf : Bytes
deriving DecidableEq, Repr

/-- `sizeof(struct snp_report_req)`. -/
def snpReportReqSize : Nat := 96

def GuestReq.userData (request : GuestReq) : Bytes :=
  request.reqBuf.take snpReportUserDataSize

def GuestReq.setUserData (request : GuestReq) (userData : Bytes) : GuestReq :=
  { request with
    reqBuf := userData ++ request.reqBuf.drop snpReportUserDataSize }

/-- How far a call of `snp_send_guest_request` has come. -/
inductive Call where
  | direct
  | sentDirect (rc : Int)
  | saved (userData : Bytes)
  | committed (userData : Bytes) (log : List SnpMrEvent)
  | sentReport (userData : Bytes) (rc : Int)

/-! ## The system -/

/-- A request as it was sent, as its caller placed it, and the log committed to. -/
structure Send where
  request : GuestReq
  placed : GuestReq
  committed : Option (List SnpMrEvent)

/-- A log read that has counted the entries, and the log and sends before it. -/
structure LogRead where
  off : Nat
  count : Nat
  entries : Nat
  log : List SnpMrEvent
  sendsBefore : Nat

structure System where
  mr : SnpMr
  requests : Nat → GuestReq
  calls : Nat → Option Call
  -- what the steps leave behind for the statements
  placed : Nat → GuestReq
  history : List SnpMrEvent
  sends : List Send
  returns : List (Nat × Int)
  reads : List LogRead
  delivered : List (Nat × Bytes)

/-- Zeroed registers, an empty log, and request buffers of any content. -/
def System.initial (requests : Nat → GuestReq) : System where
  mr := SnpMr.genesis
  requests
  calls := fun _ => none
  placed := requests
  history := []
  sends := []
  returns := []
  reads := []
  delivered := []

inductive Action where
  | extend (index : MrIndex) (digest : Digest)
  | place (buffer : Nat) (request : GuestReq)
  | call (buffer : Nat)
  | commit (buffer : Nat)
  | send (buffer : Nat) (rc : Int)
  | finish (buffer : Nat)
  | lockLog (off count : Nat)
  | copyLog (read : Nat)

section

variable (sha384 : Bytes → Digest) (enabled : Bool)

/-- `snp_mr_extend`, whole under the lock. -/
def System.extend (system : System) (index : MrIndex) (digest : Digest) :
    System :=
  let (rc, mr) := snpMrExtend sha384 system.mr index digest
  { system with
    mr
    history :=
      if rc = 0 then system.history ++ [{ index, digest }]
      else system.history }

/-- The tests at the head of `snp_send_guest_request`, and the saved copy. -/
def System.call (system : System) (buffer : Nat) : System :=
  let request := system.requests buffer
  if request.msgType ≠ .reportReq ∨ !enabled then
    { system with calls := Function.update system.calls buffer (some .direct) }
  else if request.reqBuf.length ≠ snpReportReqSize then
    { system with returns := system.returns ++ [(buffer, einval)] }
  else
    { system with
      calls :=
        Function.update system.calls buffer
          (some (.saved request.userData)) }

/-- `snp_mr_commit` on the request of a call, whole under the lock. -/
def System.commit (system : System) (buffer : Nat) (userData : Bytes) :
    System :=
  let request := system.requests buffer
  { system with
    requests :=
      Function.update system.requests buffer
        (request.setUserData
          (snpMrCommit sha384 system.mr request.userData))
    calls :=
      Function.update system.calls buffer
        (some (.committed userData system.history)) }

/-- `__snp_send_guest_request`: the request goes out, with any outcome. -/
def System.send
    (system : System) (buffer : Nat) (committed : Option (List SnpMrEvent))
    (next : Call) : System :=
  { system with
    calls := Function.update system.calls buffer (some next)
    sends :=
      system.sends ++
        [{ request := system.requests buffer
           placed := system.placed buffer
           committed }] }

/-- Return `rc` to the caller. -/
def System.return (system : System) (buffer : Nat) (rc : Int) : System :=
  { system with
    calls := Function.update system.calls buffer none
    returns := system.returns ++ [(buffer, rc)] }

/-- Copy the saved user data back into the request. -/
def System.restore (system : System) (buffer : Nat) (userData : Bytes) :
    System :=
  { system with
    requests :=
      Function.update system.requests buffer
        ((system.requests buffer).setUserData userData) }

/-- One step; `none` where the action is not enabled. -/
def System.step (system : System) : Action → Option System
  | .extend index digest => some (system.extend sha384 index digest)
  | .place buffer request =>
      match system.calls buffer with
      | none =>
          some { system with
            requests := Function.update system.requests buffer request
            placed := Function.update system.placed buffer request }
      | some _ => none
  | .call buffer =>
      match system.calls buffer with
      | none => some (system.call enabled buffer)
      | some _ => none
  | .commit buffer =>
      match system.calls buffer with
      | some (.saved userData) => some (system.commit sha384 buffer userData)
      | _ => none
  | .send buffer rc =>
      match system.calls buffer with
      | some .direct => some (system.send buffer none (.sentDirect rc))
      | some (.committed userData log) =>
          some (system.send buffer (some log) (.sentReport userData rc))
      | _ => none
  | .finish buffer =>
      match system.calls buffer with
      | some (.sentDirect rc) => some (system.return buffer rc)
      | some (.sentReport userData rc) =>
          some ((system.restore buffer userData).return buffer rc)
      | _ => none
  | .lockLog off count =>
      some { system with
        reads :=
          system.reads ++
            [{ off, count
               entries := system.mr.eventCount
               log := system.history
               sendsBefore := system.sends.length }] }
  | .copyLog read =>
      match system.reads[read]? with
      | some started =>
          if read ∈ system.delivered.map Prod.fst then
            none
          else
            some { system with
              delivered :=
                system.delivered ++
                  [(read,
                    system.mr.readLog started.entries started.off
                      started.count)] }
      | none => none

/-- The states any interleaving of the callers leads to. -/
def runSystem (requests : Nat → GuestReq) (actions : List Action) :
    Option System :=
  run (System.step sha384 enabled) (System.initial requests) actions

end

end Confos.Kernel.MeasurementRegisters
