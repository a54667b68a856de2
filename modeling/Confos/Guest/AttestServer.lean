import Confos.Guest.AttestCommitment
import Confos.Library.Machines
import Confos.Library.Semaphores

/-!
# Connections of the attestation endpoint

Every connection is served by a thread of its own.  Two semaphores bound the
connections that are open and the quotes that are in flight; a thread holds its
slot of the second kind while it reads the host keys, while it waits for
attestation-api, and while it tells its client that there is no evidence.  What
a client is told is what the handler tells it when it is alone.
-/

namespace Confos.Guest.AttestServer

open Confos.Guest.Attest
open Confos.Library
open Confos.Library.ByteStrings
open Confos.Library.Json
open Confos.Library.Machines
open Confos.Library.Semaphores

/-! ## Threads -/

/-- The arguments of the server. -/
structure Settings where
  hostKeys : String
  maxQuotes : Nat
  maxConnections : Nat

/-- What has come in over a connection so far. -/
inductive Incoming
  /-- Nothing that is passed to a handler. -/
  | silent
  | get (path : String)
  | post (request : Request)

/-- How attestation-api answers. -/
inductive Outcome
  | evidence (value : Value)
  | unavailable (detail : String)
  /-- An exception that `quote` does not turn into `Unavailable`. -/
  | raised

structure GetReply where
  status : Nat
  body : String × String
  headers : List (String × String)
deriving DecidableEq

inductive Sent
  | toGet (reply : GetReply)
  | toPost (reply : Reply)

/-- What a thread does that is seen outside of it. -/
inductive Happening
  | query (digest : Block 48) (gpu : Bool)
  | evidence (value : Value)
  | sent (sent : Sent)

inductive Phase
  /-- The head and the body are read, at most until the deadline. -/
  | reading
  | queued (nonce : Bytes) (gpu : Bool)
  /-- The thread has a slot and reads the host keys. -/
  | holding (nonce : Bytes) (gpu : Bool)
  | asking (keys : List HostKey) (digest : Block 48) (gpu : Bool)
  /-- The client is told that there is no evidence. -/
  | refusing
  | answering (sent : Sent)
  | closing
  | ended

structure Thread where
  incoming : Incoming
  phase : Phase
  log : List Happening

/-- A thread that has been started. -/
def Thread.started : Thread where
  incoming := .silent
  phase := .reading
  log := []

/-- The slots that are free. -/
structure Slots where
  connections : Nat
  quotes : Nat

namespace Phase

def holdsQuote : Phase → Bool
  | holding _ _ | asking _ _ _ | refusing => true
  | _ => false

def holdsConnection : Phase → Bool
  | ended => false
  | _ => true

end Phase

/-! ## Requests -/

def doGet (path : String) : GetReply :=
  if path = "/healthz" then
    { status := 200, body := ("status", "ok"), headers := [] }
  else if path = "/attest" then
    { status := 405
      body :=
        ("error",
          "use POST with the JSON body \x7b\"nonce\": \"<base64>\"\x7d, the nonce being 32 random bytes of your own")
      headers := [("Allow", "POST")] }
  else
    { status := 404, body := ("error", "not found"), headers := [] }

def busy : Reply :=
  .refuse 503 "busy, try again" [("Retry-After", "1")]

def noEvidence : Reply :=
  .refuse 502 "could not obtain attestation evidence" []

section

variable (loads : Bytes → Option Value)

/-- A POST up to the place where it waits for its turn. -/
def beginPost (request : Request) : Phase :=
  if request.path ≠ "/attest" then
    .answering (.toPost (.refuse 404 "not found" []))
  else
    match request.contentLength with
    | none => .answering (.toPost (.refuse 411 "Content-Length is required" []))
    | some length =>
        if length < 0 ∨ (maxBodyBytes : Int) < length then
          .answering
            (.toPost
              (.refuse 413 s!"the body may be {maxBodyBytes} bytes at most" []))
        else
          match parseRequest loads (request.body.take length.toNat) with
          | .error err => .answering (.toPost (.error 400 err.message []))
          | .ok (nonce, gpu) => .queued nonce gpu

/-- What follows when the reading is over. -/
def dispatch : Incoming → Phase
  | .silent => .closing
  | .get path => .answering (.toGet (doGet path))
  | .post request => beginPost loads request

end

/-! ## Turns -/

/-- What moves a thread on. -/
inductive Turn
  /-- The client sends. -/
  | send (incoming : Incoming)
  /-- All has come, or the client has hung up, or the deadline has shut the
  connection. -/
  | endReading
  | acquire
  | queueTimeout
  | readKeys (files : List HostKeyFile)
  | backend (outcome : Outcome)
  /-- The answer is written, or the writing has failed. -/
  | write
  | finish

section

variable (settings : Settings) (sha384 : Bytes → Block 48)
variable (loads : Bytes → Option Value)

/-- What becomes of a thread with a slot when the keys are read. -/
def askFor (files : List HostKeyFile) (nonce : Bytes) :
    Except Raised (List HostKey × Block 48) := do
  let keys ← readHostKeys settings.hostKeys files
  let digest ← reportData sha384 nonce (keys.map (·.blob))
  return (keys, digest)

/-- The answer over some keys and evidence. -/
def answerOf (keys : List HostKey) (attestation : Value) : Reply :=
  .answer
    { version := "confos/ssh-host-keys/v1"
      sshHostKeys := keys.map (·.line)
      attestation := attestation }

/-- One turn of a thread, with the slots and what is seen of it. -/
def turn (slots : Slots) (incoming : Incoming) :
    Phase → Turn → Option (Phase × Slots × List Happening)
  | .reading, .endReading => some (dispatch loads incoming, slots, [])
  | .queued nonce gpu, .acquire =>
      if slots.quotes = 0 then
        none
      else
        some
          (.holding nonce gpu, { slots with quotes := slots.quotes - 1 }, [])
  | .queued _ _, .queueTimeout =>
      some (.answering (.toPost busy), slots, [])
  | .holding nonce gpu, .readKeys files =>
      match askFor settings sha384 files nonce with
      | .ok (keys, digest) =>
          some (.asking keys digest gpu, slots, [.query digest gpu])
      | .error (.unavailable _) => some (.refusing, slots, [])
      | .error _ =>
          some (.closing, { slots with quotes := slots.quotes + 1 }, [])
  | .asking keys _ _, .backend outcome =>
      match outcome with
      | .evidence value =>
          some
            (.answering (.toPost (answerOf keys value)),
              { slots with quotes := slots.quotes + 1 }, [.evidence value])
      | .unavailable _ => some (.refusing, slots, [])
      | .raised =>
          some (.closing, { slots with quotes := slots.quotes + 1 }, [])
  -- The slot is given back when the handler is left.
  | .refusing, .write =>
      some
        (.closing, { slots with quotes := slots.quotes + 1 },
          [.sent (.toPost noEvidence)])
  | .answering sent, .write => some (.closing, slots, [.sent sent])
  | .closing, .finish =>
      some
        (.ended, { slots with connections := slots.connections + 1 }, [])
  | _, _ => none

/-! ## The server -/

structure State where
  slots : Slots
  threads : List Thread

inductive Action
  /-- A connection comes in; starting its thread may fail. -/
  | connect (threadStarts : Bool)
  | turn (thread : Nat) (turn : Turn)

def initial : State where
  slots :=
    { connections := settings.maxConnections, quotes := settings.maxQuotes }
  threads := []

/-- A connection is closed unread where no slot is free for it. -/
def processRequest (state : State) (threadStarts : Bool) : State :=
  if state.slots.connections = 0 then
    state
  else if threadStarts then
    { slots :=
        { state.slots with connections := state.slots.connections - 1 }
      threads := state.threads ++ [.started] }
  else
    state

def turnThread (state : State) (index : Nat) (thread : Thread) :
    Turn → Option State
  | .send incoming =>
      match thread.phase with
      | .reading =>
          some
            { state with
              threads :=
                state.threads.set index { thread with incoming := incoming } }
      | _ => none
  | turned =>
      (turn settings sha384 loads state.slots thread.incoming thread.phase
        turned).map fun (phase, slots, happenings) =>
          { slots := slots
            threads :=
              state.threads.set index
                { thread with
                  phase := phase
                  log := thread.log ++ happenings } }

def step (state : State) : Action → Option State
  | .connect threadStarts => some (processRequest state threadStarts)
  | .turn index turned =>
      state.threads[index]?.bind fun thread =>
        turnThread settings sha384 loads state index thread turned

/-- The turns a thread can take, with what they do. -/
inductive Turned (slots : Slots) (incoming : Incoming) :
    Phase → Turn → Phase → Slots → List Happening → Prop
  | endReading :
      Turned slots incoming .reading .endReading (dispatch loads incoming)
        slots []
  | acquire {nonce : Bytes} {gpu : Bool} (free : slots.quotes ≠ 0) :
      Turned slots incoming (.queued nonce gpu) .acquire (.holding nonce gpu)
        { slots with quotes := slots.quotes - 1 } []
  | queueTimeout {nonce : Bytes} {gpu : Bool} :
      Turned slots incoming (.queued nonce gpu) .queueTimeout
        (.answering (.toPost busy)) slots []
  | ask
      {nonce : Bytes} {gpu : Bool} {files : List HostKeyFile}
      {keys : List HostKey} {digest : Block 48}
      (built : askFor settings sha384 files nonce = .ok (keys, digest)) :
      Turned slots incoming (.holding nonce gpu) (.readKeys files)
        (.asking keys digest gpu) slots [.query digest gpu]
  | keysUnavailable
      {nonce : Bytes} {gpu : Bool} {files : List HostKeyFile}
      {fault : Unavailable}
      (failed :
        askFor settings sha384 files nonce = .error (.unavailable fault)) :
      Turned slots incoming (.holding nonce gpu) (.readKeys files) .refusing
        slots []
  | keysRaised
      {nonce : Bytes} {gpu : Bool} {files : List HostKeyFile} {error : Raised}
      (failed : askFor settings sha384 files nonce = .error error)
      (other : ∀ fault, error ≠ .unavailable fault) :
      Turned slots incoming (.holding nonce gpu) (.readKeys files) .closing
        { slots with quotes := slots.quotes + 1 } []
  | evidence
      {keys : List HostKey} {digest : Block 48} {gpu : Bool} {value : Value} :
      Turned slots incoming (.asking keys digest gpu)
        (.backend (.evidence value))
        (.answering (.toPost (answerOf keys value)))
        { slots with quotes := slots.quotes + 1 } [.evidence value]
  | unavailable
      {keys : List HostKey} {digest : Block 48} {gpu : Bool}
      {detail : String} :
      Turned slots incoming (.asking keys digest gpu)
        (.backend (.unavailable detail)) .refusing slots []
  | raised {keys : List HostKey} {digest : Block 48} {gpu : Bool} :
      Turned slots incoming (.asking keys digest gpu) (.backend .raised)
        .closing { slots with quotes := slots.quotes + 1 } []
  | refuse :
      Turned slots incoming .refusing .write .closing
        { slots with quotes := slots.quotes + 1 } [.sent (.toPost noEvidence)]
  | answer {sent : Sent} :
      Turned slots incoming (.answering sent) .write .closing slots
        [.sent sent]
  | finish :
      Turned slots incoming .closing .finish .ended
        { slots with connections := slots.connections + 1 } []

/-- The actions of the server that change something, with what they do. -/
inductive Acted : State → State → Prop
  | same {state : State} : Acted state state
  | connected {state : State} (free : state.slots.connections ≠ 0) :
      Acted state
        { slots :=
            { state.slots with connections := state.slots.connections - 1 }
          threads := state.threads ++ [.started] }
  | sent
      {state : State} {index : Nat} {thread : Thread} (incoming : Incoming)
      (found : state.threads[index]? = some thread)
      (reading : thread.phase = .reading) :
      Acted state
        { state with
          threads :=
            state.threads.set index { thread with incoming := incoming } }
  | turned
      {state : State} {index : Nat} {thread : Thread} {turned : Turn}
      {phase : Phase} {slots : Slots} {happenings : List Happening}
      (found : state.threads[index]? = some thread)
      (moved :
        Turned settings sha384 loads state.slots thread.incoming thread.phase
          turned phase slots happenings) :
      Acted state
        { slots := slots
          threads :=
            state.threads.set index
              { thread with
                phase := phase
                log := thread.log ++ happenings } }

variable {settings sha384 loads}

theorem turned_of_turn
    {slots later : Slots} {incoming : Incoming} {before after : Phase}
    {turned : Turn} {happenings : List Happening}
    (moved :
      turn settings sha384 loads slots incoming before turned =
        some (after, later, happenings)) :
    Turned settings sha384 loads slots incoming before turned after later
      happenings := by
  revert moved
  fun_cases turn settings sha384 loads slots incoming before turned with
  | case1 =>
      intro moved
      cases moved
      exact .endReading
  | case2 =>
      intro moved
      cases moved
  | case3 nonce gpu free =>
      intro moved
      cases moved
      exact .acquire free
  | case4 =>
      intro moved
      cases moved
      exact .queueTimeout
  | case5 nonce gpu files keys digest built =>
      intro moved
      cases moved
      exact .ask built
  | case6 nonce gpu files fault failed =>
      intro moved
      cases moved
      exact .keysUnavailable failed
  | case7 nonce gpu files error other failed =>
      intro moved
      cases moved
      exact .keysRaised failed other
  | case8 =>
      intro moved
      cases moved
      exact .evidence
  | case9 =>
      intro moved
      cases moved
      exact .unavailable
  | case10 =>
      intro moved
      cases moved
      exact .raised
  | case11 =>
      intro moved
      cases moved
      exact .refuse
  | case12 =>
      intro moved
      cases moved
      exact .answer
  | case13 =>
      intro moved
      cases moved
      exact .finish
  | case14 =>
      intro moved
      cases moved

theorem acted_of_step
    {state next : State} {action : Action}
    (stepped : step settings sha384 loads state action = some next) :
    Acted settings sha384 loads state next := by
  cases action with
  | connect threadStarts =>
      cases stepped
      rw [processRequest]
      split
      · exact .same
      · next free =>
          split
          · exact .connected free
          · exact .same
  | turn index turned =>
      rcases Option.bind_eq_some_iff.1 stepped with ⟨thread, found, moved⟩
      revert moved
      fun_cases turnThread settings sha384 loads state index thread turned with
      | case1 incoming reading =>
          intro moved
          cases moved
          exact .sent incoming found reading
      | case2 =>
          intro moved
          cases moved
      | case3 =>
          intro moved
          rcases Option.map_eq_some_iff.1 moved with
            ⟨⟨phase, slots, happenings⟩, turns, rfl⟩
          exact .turned found (turned_of_turn turns)

/-! ## Slots -/

def Thread.holdsQuote (thread : Thread) : Bool :=
  thread.phase.holdsQuote

def Thread.holdsConnection (thread : Thread) : Bool :=
  thread.phase.holdsConnection

/-- The free slots and those of the threads are all there are. -/
structure Accounted (settings : Settings) (state : State) : Prop where
  connections :
    Balanced Thread.holdsConnection settings.maxConnections
      state.slots.connections state.threads
  quotes :
    Balanced Thread.holdsQuote settings.maxQuotes state.slots.quotes
      state.threads

variable (sha384 loads) in
theorem beginPost_cases (request : Request) :
    (∃ nonce gpu, beginPost loads request = .queued nonce gpu) ∨
      ∃ reply,
        beginPost loads request = .answering (.toPost reply) ∧
          ∀ endpoint, doPost sha384 loads endpoint request = (reply, none) := by
  fun_cases beginPost loads request with
  | case1 otherPath =>
      exact Or.inr ⟨_, rfl, fun endpoint => if_pos otherPath⟩
  | case2 path noLength =>
      refine Or.inr ⟨_, rfl, fun endpoint => ?_⟩
      rw [doPost, if_neg path, noLength]
  | case3 path length hasLength outside =>
      refine Or.inr ⟨_, rfl, fun endpoint => ?_⟩
      rw [doPost, if_neg path, hasLength]
      exact if_pos outside
  | case4 path length hasLength inside err refused =>
      refine Or.inr ⟨_, rfl, fun endpoint => ?_⟩
      rw [doPost, if_neg path, hasLength]
      dsimp only
      rw [if_neg inside, refused]
  | case5 path length hasLength inside nonce gpu parsed =>
      exact Or.inl ⟨nonce, gpu, rfl⟩

/-- What the handler does with a request that it does not refuse at once. -/
theorem doPost_of_queued
    {request : Request} {nonce : Bytes} {gpu : Bool}
    (queued : beginPost loads request = .queued nonce gpu)
    (endpoint : Endpoint) :
    doPost sha384 loads endpoint request =
      if ¬ endpoint.acquired then
        (busy, none)
      else
        match attest sha384 endpoint nonce gpu with
        | .error (.unavailable _) => (noEvidence, none)
        | .error _ => (.closed, none)
        | .ok (keys, digest, attestation) =>
            (answerOf keys attestation, some digest) := by
  revert queued
  fun_cases beginPost loads request with
  | case1 =>
      intro queued
      cases queued
  | case2 =>
      intro queued
      cases queued
  | case3 =>
      intro queued
      cases queued
  | case4 =>
      intro queued
      cases queued
  | case5 path length hasLength inside found isGpu parsed =>
      intro queued
      cases queued
      rw [doPost, if_neg path, hasLength]
      dsimp only
      rw [if_neg inside, parsed]
      rfl

variable (loads) in
theorem holds_dispatch (incoming : Incoming) :
    (dispatch loads incoming).holdsQuote = false ∧
      (dispatch loads incoming).holdsConnection = true := by
  cases incoming with
  | silent => exact ⟨rfl, rfl⟩
  | get path => exact ⟨rfl, rfl⟩
  | post request =>
      rcases beginPost_cases (fun _ => Block.zero 48) loads request with
        ⟨nonce, gpu, queued⟩ | ⟨reply, answering, -⟩
      · rw [dispatch, queued]
        exact ⟨rfl, rfl⟩
      · rw [dispatch, answering]
        exact ⟨rfl, rfl⟩

/-- A turn gives back the slots that the thread no longer holds. -/
theorem Turned.balance
    {slots later : Slots} {incoming : Incoming} {before after : Phase}
    {turned : Turn} {happenings : List Happening}
    (moved :
      Turned settings sha384 loads slots incoming before turned after later
        happenings) :
    later.connections + held Phase.holdsConnection after =
        slots.connections + held Phase.holdsConnection before ∧
      later.quotes + held Phase.holdsQuote after =
        slots.quotes + held Phase.holdsQuote before := by
  cases moved with
  | endReading =>
      rcases holds_dispatch loads incoming with
        ⟨noQuote, connection⟩
      rw [held, held, held, held, noQuote, connection]
      exact ⟨rfl, rfl⟩
  | acquire free =>
      refine ⟨rfl, ?_⟩
      change slots.quotes - 1 + 1 = slots.quotes + 0
      omega
  | _ => exact ⟨rfl, rfl⟩

theorem accounted_initial : Accounted settings (initial settings) where
  connections := balanced_nil _
  quotes := balanced_nil _

theorem accounted_of_acted
    {before after : State} (accounted : Accounted settings before)
    (acted : Acted settings sha384 loads before after) :
    Accounted settings after := by
  cases acted with
  | same => exact accounted
  | connected free =>
      refine ⟨accounted.connections.concat ?_, accounted.quotes.concat rfl⟩
      change before.slots.connections - 1 + 1 = before.slots.connections
      omega
  | sent incoming found reading =>
      exact
        ⟨accounted.connections.set found rfl, accounted.quotes.set found rfl⟩
  | turned found moved =>
      exact
        ⟨accounted.connections.set found moved.balance.1,
          accounted.quotes.set found moved.balance.2⟩

/-! ## Conversations -/

section

variable (settings sha384 loads)

/-- The request makes the endpoint ask for this quote, over keys it reads. -/
def Asks
    (request : Request) (keys : List HostKey) (digest : Block 48)
    (gpu : Bool) : Prop :=
  ∃ nonce files,
    beginPost loads request = .queued nonce gpu ∧
      askFor settings sha384 files nonce = .ok (keys, digest)

/-- The handler alone at an endpoint over these host keys. -/
def Replies
    (request : Request) (reply : Reply) (digest : Option (Block 48)) : Prop :=
  ∃ endpoint,
    endpoint.hostKeys = settings.hostKeys ∧
      doPost sha384 loads endpoint request = (reply, digest)

/-- All that is seen of a thread that has served what came in. -/
inductive Told : Incoming → List Happening → Prop
  | silent : Told .silent []
  | get (path : String) :
      Told (.get path) [.sent (.toGet (doGet path))]
  | unasked
      {request : Request} {reply : Reply}
      (replies : Replies settings sha384 loads request reply none) :
      Told (.post request) [.sent (.toPost reply)]
  | closed
      {request : Request}
      (replies : Replies settings sha384 loads request .closed none) :
      Told (.post request) []
  | noEvidence
      {request : Request} {keys : List HostKey} {digest : Block 48}
      {gpu : Bool}
      (asks : Asks settings sha384 loads request keys digest gpu)
      (replies : Replies settings sha384 loads request noEvidence none) :
      Told (.post request)
        [.query digest gpu, .sent (.toPost noEvidence)]
  | raised
      {request : Request} {keys : List HostKey} {digest : Block 48}
      {gpu : Bool}
      (asks : Asks settings sha384 loads request keys digest gpu) :
      Told (.post request) [.query digest gpu]
  | answered
      {request : Request} {keys : List HostKey} {digest : Block 48}
      {gpu : Bool} {value : Value}
      (asks : Asks settings sha384 loads request keys digest gpu)
      (replies :
        Replies settings sha384 loads request (answerOf keys value)
          (some digest)) :
      Told (.post request)
        [.query digest gpu, .evidence value,
          .sent (.toPost (answerOf keys value))]

/-- What is known of a thread in its phase. -/
def Serves (thread : Thread) : Prop :=
  match thread.phase with
  | .reading => thread.log = []
  | .queued nonce gpu | .holding nonce gpu =>
      thread.log = [] ∧
        ∃ request,
          thread.incoming = .post request ∧
            beginPost loads request = .queued nonce gpu
  | .asking keys digest gpu =>
      thread.log = [.query digest gpu] ∧
        ∃ request,
          thread.incoming = .post request ∧
            Asks settings sha384 loads request keys digest gpu
  | .refusing =>
      Told settings sha384 loads thread.incoming
        (thread.log ++ [.sent (.toPost noEvidence)])
  | .answering sent =>
      Told settings sha384 loads thread.incoming
        (thread.log ++ [.sent sent])
  | .closing | .ended =>
      Told settings sha384 loads thread.incoming thread.log

end

/-- The endpoint as a thread has found it. -/
def found
    (settings : Settings) (files : List HostKeyFile) (acquired : Bool)
    (quote : Except Unavailable Value) : Endpoint where
  hostKeys := settings.hostKeys
  files := files
  acquired := acquired
  quote := fun _ _ => quote

/-- The handler with its slot: the keys and the digest, then the evidence. -/
theorem attest_found
    (files : List HostKeyFile) (acquired : Bool)
    (quote : Except Unavailable Value) (nonce : Bytes) (gpu : Bool) :
    attest sha384 (found settings files acquired quote) nonce gpu =
      askFor settings sha384 files nonce >>= fun (keys, digest) =>
        quote.mapError Raised.unavailable >>= fun value =>
          .ok (keys, digest, value) := by
  rw [attest, askFor]
  change (readHostKeys settings.hostKeys files >>= _) = _
  cases readHostKeys settings.hostKeys files with
  | error error => rfl
  | ok keys =>
      change (reportData sha384 nonce (keys.map (·.blob)) >>= _) =
        (reportData sha384 nonce (keys.map (·.blob)) >>= _) >>= _
      cases reportData sha384 nonce (keys.map (·.blob)) with
      | error error => rfl
      | ok digest => rfl

section

variable
    {request : Request} {nonce : Bytes} {gpu : Bool}
    {files : List HostKeyFile} {keys : List HostKey} {digest : Block 48}

theorem replies_busy (queued : beginPost loads request = .queued nonce gpu) :
    Replies settings sha384 loads request busy none :=
  ⟨found settings [] false (.ok .null), rfl, doPost_of_queued queued _⟩

theorem replies_of_unavailable
    (queued : beginPost loads request = .queued nonce gpu)
    {fault : Unavailable}
    (failed :
      askFor settings sha384 files nonce = .error (.unavailable fault)) :
    Replies settings sha384 loads request noEvidence none := by
  refine ⟨found settings files true (.ok .null), rfl, ?_⟩
  rw [doPost_of_queued queued, attest_found, failed]
  rfl

theorem replies_of_raised
    (queued : beginPost loads request = .queued nonce gpu)
    {error : Raised} (failed : askFor settings sha384 files nonce = .error error)
    (other : ∀ fault, error ≠ .unavailable fault) :
    Replies settings sha384 loads request .closed none := by
  refine ⟨found settings files true (.ok .null), rfl, ?_⟩
  rw [doPost_of_queued queued, attest_found, failed]
  cases error with
  | unavailable fault => exact absurd rfl (other fault)
  | structError => rfl
  | valueError message => rfl

theorem Asks.replies_noEvidence
    (asks : Asks settings sha384 loads request keys digest gpu)
    (detail : String) :
    Replies settings sha384 loads request noEvidence none := by
  rcases asks with ⟨nonce, files, queued, built⟩
  refine
    ⟨found settings files true (.error (.backend detail)), rfl, ?_⟩
  rw [doPost_of_queued queued, attest_found, built]
  rfl

theorem Asks.replies_answer
    (asks : Asks settings sha384 loads request keys digest gpu)
    (value : Value) :
    Replies settings sha384 loads request (answerOf keys value)
      (some digest) := by
  rcases asks with ⟨nonce, files, queued, built⟩
  refine ⟨found settings files true (.ok value), rfl, ?_⟩
  rw [doPost_of_queued queued, attest_found, built]
  rfl

end

/-- Every turn of a thread goes on with a conversation of the handler alone. -/
theorem Serves.turn
    {slots later : Slots} {thread : Thread} {after : Phase} {turned : Turn}
    {happenings : List Happening}
    (serves : Serves settings sha384 loads thread)
    (moved :
      Turned settings sha384 loads slots thread.incoming thread.phase turned
        after later happenings) :
    Serves settings sha384 loads
      { thread with phase := after, log := thread.log ++ happenings } := by
  rcases thread with ⟨incoming, phase, log⟩
  dsimp only at moved serves ⊢
  cases moved with
  | endReading =>
      cases (show log = [] from serves)
      cases incoming with
      | silent => exact .silent
      | get path => exact .get path
      | post request =>
          rcases beginPost_cases sha384 loads request with
            ⟨nonce, gpu, queued⟩ | ⟨reply, answering, replies⟩
          · rw [dispatch, queued]
            exact ⟨rfl, request, rfl, queued⟩
          · rw [dispatch, answering]
            exact
              .unasked ⟨found settings [] false (.ok .null), rfl, replies _⟩
  | acquire free =>
      rw [List.append_nil]
      exact serves
  | queueTimeout =>
      rcases serves with ⟨rfl, request, rfl, queued⟩
      exact .unasked (replies_busy queued)
  | ask built =>
      rcases serves with ⟨rfl, request, rfl, queued⟩
      exact ⟨rfl, request, rfl, _, _, queued, built⟩
  | keysUnavailable failed =>
      rcases serves with ⟨rfl, request, rfl, queued⟩
      exact .unasked (replies_of_unavailable queued failed)
  | keysRaised failed other =>
      rcases serves with ⟨rfl, request, rfl, queued⟩
      exact .closed (replies_of_raised queued failed other)
  | evidence =>
      rcases serves with ⟨rfl, request, rfl, asks⟩
      exact .answered asks (asks.replies_answer _)
  | unavailable =>
      rcases serves with ⟨rfl, request, rfl, asks⟩
      exact .noEvidence asks (asks.replies_noEvidence "")
  | raised =>
      rcases serves with ⟨rfl, request, rfl, asks⟩
      exact .raised asks
  | refuse => exact serves
  | answer => exact serves
  | finish =>
      rw [List.append_nil]
      exact serves

theorem serves_of_acted
    {before after : State}
    (serves :
      ∀ thread ∈ before.threads, Serves settings sha384 loads thread)
    (acted : Acted settings sha384 loads before after) :
    ∀ thread ∈ after.threads, Serves settings sha384 loads thread := by
  intro thread member
  cases acted with
  | same => exact serves thread member
  | connected free =>
      rcases List.mem_append.1 member with earlier | new
      · exact serves thread earlier
      · cases List.mem_singleton.1 new
        exact (rfl : Thread.started.log = [])
  | sent incoming found reading =>
      rcases List.mem_or_eq_of_mem_set member with earlier | rfl
      · exact serves thread earlier
      · have here := serves _ (List.mem_of_getElem? found)
        rw [Serves, reading] at here
        rw [Serves, reading]
        exact here
  | turned found moved =>
      rcases List.mem_or_eq_of_mem_set member with earlier | rfl
      · exact serves thread earlier
      · exact (serves _ (List.mem_of_getElem? found)).turn moved

/-- A thread that has shown something is in a conversation. -/
theorem Serves.told
    {thread : Thread} (serves : Serves settings sha384 loads thread) :
    (thread.log = [] ∨
        ∃ rest,
          Told settings sha384 loads thread.incoming (thread.log ++ rest)) ∧
      (thread.phase = .closing ∨ thread.phase = .ended →
        Told settings sha384 loads thread.incoming thread.log) := by
  rcases thread with ⟨incoming, phase, log⟩
  cases phase with
  | reading =>
      refine ⟨Or.inl serves, ?_⟩
      rintro (impossible | impossible) <;> cases impossible
  | queued nonce gpu =>
      refine ⟨Or.inl serves.1, ?_⟩
      rintro (impossible | impossible) <;> cases impossible
  | holding nonce gpu =>
      refine ⟨Or.inl serves.1, ?_⟩
      rintro (impossible | impossible) <;> cases impossible
  | asking keys digest gpu =>
      rcases serves with ⟨rfl, request, rfl, asks⟩
      refine ⟨Or.inr ⟨[], .raised asks⟩, ?_⟩
      rintro (impossible | impossible) <;> cases impossible
  | refusing =>
      refine ⟨Or.inr ⟨_, serves⟩, ?_⟩
      rintro (impossible | impossible) <;> cases impossible
  | answering sent =>
      refine ⟨Or.inr ⟨_, serves⟩, ?_⟩
      rintro (impossible | impossible) <;> cases impossible
  | closing =>
      refine ⟨Or.inr ⟨[], ?_⟩, fun _ => serves⟩
      rw [List.append_nil]
      exact serves
  | ended =>
      refine ⟨Or.inr ⟨[], ?_⟩, fun _ => serves⟩
      rw [List.append_nil]
      exact serves

theorem accounted_run
    {actions : List Action} {state : State}
    (ran :
      run (step settings sha384 loads) (initial settings) actions =
        some state) :
    Accounted settings state :=
  run_invariant (Accounted settings) accounted_initial
    (fun _ _ _ accounted stepped =>
      accounted_of_acted accounted (acted_of_step stepped))
    ran

/--
In every run the slots that are free and the slots that threads hold add up to
the limits, and every connection is told what the handler alone would tell it.
-/
theorem told_within_limits
    {actions : List Action} {state : State}
    (ran :
      run (step settings sha384 loads) (initial settings) actions =
        some state) :
    Accounted settings state ∧
      ∀ thread ∈ state.threads,
        (thread.log = [] ∨
            ∃ rest,
              Told settings sha384 loads thread.incoming
                (thread.log ++ rest)) ∧
          (thread.phase = .closing ∨ thread.phase = .ended →
            Told settings sha384 loads thread.incoming thread.log) := by
  have serves :
      ∀ thread ∈ state.threads, Serves settings sha384 loads thread :=
    run_invariant
      (fun state =>
        ∀ thread ∈ state.threads, Serves settings sha384 loads thread)
      (fun _ member => absurd member List.not_mem_nil)
      (fun _ _ _ serves stepped =>
        serves_of_acted serves (acted_of_step stepped))
      ran
  exact ⟨accounted_run ran, fun thread member => (serves thread member).told⟩

/-! ## A server with one slot for a quote -/

def smallSettings : Settings where
  hostKeys := oneKeyEndpoint.hostKeys
  maxQuotes := 1
  maxConnections := 2

/-- One client has its answer, one has been sent away, one is closed unread. -/
def smallActions : List Action :=
  [.connect true, .connect true, .connect true,
    .turn 0 (.send (.post zeroNonceRequest)),
    .turn 1 (.send (.post zeroNonceRequest)),
    .turn 0 .endReading, .turn 1 .endReading, .turn 1 .acquire,
    .turn 0 .queueTimeout, .turn 0 .write,
    .turn 1 (.readKeys oneKeyEndpoint.files),
    .turn 1 (.backend (.evidence .null)), .turn 1 .write, .turn 0 .finish]

theorem run_smallActions :
    ∃ state,
      run (step smallSettings firstBytes48 loadsAscii) (initial smallSettings)
          smallActions = some state ∧
        state.slots.connections = 1 ∧ state.slots.quotes = 1 ∧
          state.threads.map (·.log.length) = [1, 3] := by
  have ends :
      (run (step smallSettings firstBytes48 loadsAscii) (initial smallSettings)
          smallActions).map (fun state =>
            (state.slots.connections, state.slots.quotes,
              state.threads.map (·.log.length))) =
        some (1, 1, [1, 3]) := by
    decide +kernel
  rcases Option.map_eq_some_iff.1 ends with ⟨state, ran, same⟩
  rcases Prod.mk.inj same with ⟨connections, others⟩
  rcases Prod.mk.inj others with ⟨quotes, logs⟩
  exact ⟨state, ran, connections, quotes, logs⟩

theorem told_within_limits_small :
    ∃ state,
      run (step smallSettings firstBytes48 loadsAscii) (initial smallSettings)
          smallActions = some state ∧
        state.threads.map (·.log.length) = [1, 3] ∧
          Accounted smallSettings state ∧
            ∀ thread ∈ state.threads,
              (thread.log = [] ∨
                  ∃ rest,
                    Told smallSettings firstBytes48 loadsAscii thread.incoming
                      (thread.log ++ rest)) ∧
                (thread.phase = .closing ∨ thread.phase = .ended →
                  Told smallSettings firstBytes48 loadsAscii thread.incoming
                    thread.log) := by
  rcases run_smallActions with ⟨state, ran, -, -, logs⟩
  exact ⟨state, ran, logs, told_within_limits ran⟩

/-! ## Slots come free -/

namespace Phase

/-- How many turns a thread can still take. -/
def remaining : Phase → Nat
  | reading => 7
  | queued _ _ => 6
  | holding _ _ => 5
  | asking _ _ _ => 4
  | refusing => 3
  | answering _ => 2
  | closing => 1
  | ended => 0

end Phase

/-- What happens without the clients, with attestation-api out of reach. -/
def Unaided (files : List HostKeyFile) : Action → Prop
  | .turn _ .endReading | .turn _ .queueTimeout | .turn _ .write |
      .turn _ .finish => True
  | .turn _ (.readKeys read) => read = files
  | .turn _ (.backend (.unavailable _)) => True
  | _ => False

theorem remaining_dispatch (incoming : Incoming) :
    (dispatch loads incoming).remaining < 7 := by
  cases incoming with
  | silent => exact (show 1 < 7 by decide)
  | get path => exact (show 2 < 7 by decide)
  | post request =>
      rcases beginPost_cases (fun _ => Block.zero 48) loads request with
        ⟨nonce, gpu, queued⟩ | ⟨reply, answering, -⟩
      · rw [dispatch, queued]
        exact (show 6 < 7 by decide)
      · rw [dispatch, answering]
        exact (show 2 < 7 by decide)

variable (settings sha384 loads) in
/-- A thread that has not ended has a turn that needs nobody. -/
theorem exists_unaided_turn
    (files : List HostKeyFile) (slots : Slots) (incoming : Incoming)
    {phase : Phase} (going : phase ≠ .ended) (index : Nat) :
    ∃ turned after later happenings,
      Unaided files (.turn index turned) ∧ (∀ sent, turned ≠ .send sent) ∧
        turn settings sha384 loads slots incoming phase turned =
            some (after, later, happenings) ∧
          after.remaining < phase.remaining := by
  cases phase with
  | reading =>
      exact
        ⟨.endReading, _, _, _, trivial, nofun, rfl,
          remaining_dispatch incoming⟩
  | queued nonce gpu =>
      exact
        ⟨.queueTimeout, _, _, _, trivial, nofun, rfl,
          (show 2 < 6 by decide)⟩
  | holding nonce gpu =>
      refine ⟨.readKeys files, ?_⟩
      cases built : askFor settings sha384 files nonce with
      | ok asked =>
          rcases asked with ⟨keys, digest⟩
          refine
            ⟨.asking keys digest gpu, slots, [.query digest gpu], rfl, nofun,
              ?_, show 4 < 5 by decide⟩
          rw [turn, built]
      | error error =>
          cases error with
          | unavailable fault =>
              refine
                ⟨.refusing, slots, [], rfl, nofun, ?_, show 3 < 5 by decide⟩
              rw [turn, built]
          | structError =>
              refine
                ⟨.closing, { slots with quotes := slots.quotes + 1 }, [], rfl,
                  nofun, ?_, show 1 < 5 by decide⟩
              rw [turn, built]
          | valueError message =>
              refine
                ⟨.closing, { slots with quotes := slots.quotes + 1 }, [], rfl,
                  nofun, ?_, show 1 < 5 by decide⟩
              rw [turn, built]
  | asking keys digest gpu =>
      exact
        ⟨.backend (.unavailable "timed out"), _, _, _, trivial, nofun, rfl,
          (show 3 < 4 by decide)⟩
  | refusing =>
      exact ⟨.write, _, _, _, trivial, nofun, rfl, (show 1 < 3 by decide)⟩
  | answering sent =>
      exact ⟨.write, _, _, _, trivial, nofun, rfl, (show 1 < 2 by decide)⟩
  | closing =>
      exact ⟨.finish, _, _, _, trivial, nofun, rfl, (show 0 < 1 by decide)⟩
  | ended => exact absurd rfl going

theorem turnThread_of_turn
    {state : State} {index : Nat} {thread : Thread} {turned : Turn}
    {after : Phase} {later : Slots} {happenings : List Happening}
    (noSend : ∀ sent, turned ≠ .send sent)
    (moved :
      turn settings sha384 loads state.slots thread.incoming thread.phase
          turned =
        some (after, later, happenings)) :
    turnThread settings sha384 loads state index thread turned =
      some
        { slots := later
          threads :=
            state.threads.set index
              { thread with
                phase := after
                log := thread.log ++ happenings } } := by
  cases turned with
  | send sent => exact absurd rfl (noSend sent)
  | _ =>
      rw [turnThread, moved]
      · rfl
      · nofun

variable (settings sha384 loads) in
/-- A turn without help that takes the server nearer to its rest. -/
theorem exists_unaided_step
    (files : List HostKeyFile) {state : State} {thread : Thread} {index : Nat}
    (found : state.threads[index]? = some thread)
    (going : thread.phase ≠ .ended) :
    ∃ action next,
      Unaided files action ∧
        step settings sha384 loads state action = some next ∧
          (next.threads.map (·.phase.remaining)).sum <
            (state.threads.map (·.phase.remaining)).sum := by
  rcases
    exists_unaided_turn settings sha384 loads files state.slots
      thread.incoming going index with
    ⟨turned, after, later, happenings, unaided, noSend, moved, lower⟩
  refine
    ⟨.turn index turned,
      { slots := later
        threads :=
          state.threads.set index
            { thread with phase := after, log := thread.log ++ happenings } },
      unaided, ?_, sum_map_set_lt found lower⟩
  rw [step, found]
  exact turnThread_of_turn noSend moved

/--
From every state that is reached the server comes to rest with all its slots
free, whatever its clients do not do, and with attestation-api out of reach.
-/
theorem reaches_rest
    {actions : List Action} {state : State}
    (ran :
      run (step settings sha384 loads) (initial settings) actions =
        some state)
    (files : List HostKeyFile) :
    ∃ finish,
      Reaches (step settings sha384 loads) (Unaided files) state finish ∧
        finish.slots = (initial settings).slots ∧
          ∀ thread ∈ finish.threads, thread.phase = .ended := by
  refine
    exists_reaches_of_rank
      (fun state : State => (state.threads.map (·.phase.remaining)).sum)
      (fun state accounted => ?_) state (accounted_run ran)
  by_cases allOver : ∀ thread ∈ state.threads, thread.phase = .ended
  · refine Or.inl ⟨?_, allOver⟩
    have connections : state.slots.connections = settings.maxConnections :=
      accounted.connections.free_eq fun thread member => by
        rw [Thread.holdsConnection, allOver thread member]
        rfl
    have quotes : state.slots.quotes = settings.maxQuotes :=
      accounted.quotes.free_eq fun thread member => by
        rw [Thread.holdsQuote, allOver thread member]
        rfl
    rcases state with ⟨⟨_, _⟩, threads⟩
    cases connections
    cases quotes
    rfl
  · push Not at allOver
    rcases allOver with ⟨thread, member, going⟩
    rcases List.getElem?_of_mem member with ⟨index, found⟩
    rcases
      exists_unaided_step settings sha384 loads files found going with
      ⟨action, next, unaided, stepped, lower⟩
    exact
      Or.inr
        ⟨next, .of_step unaided stepped,
          accounted_of_acted accounted (acted_of_step stepped), lower⟩

theorem reaches_rest_small :
    ∃ state finish,
      run (step smallSettings firstBytes48 loadsAscii) (initial smallSettings)
          smallActions = some state ∧
        state.slots.connections = 1 ∧
          Reaches (step smallSettings firstBytes48 loadsAscii) (Unaided [])
            state finish ∧
            finish.slots = (initial smallSettings).slots := by
  rcases run_smallActions with ⟨state, ran, connections, -, -⟩
  rcases reaches_rest ran [] with ⟨finish, reaches, rest, -⟩
  exact ⟨state, finish, ran, connections, reaches, rest⟩

end

end Confos.Guest.AttestServer
