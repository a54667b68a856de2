import Confos.Apt.Staging
import Confos.Library.Machines
import Confos.Library.Ownership

/-!
# Workers that share staged files

`mirror-apt-snapshot` reads the suites, and later fetches the packages, in a
pool of threads.  The files they stage are named by what they hold, so that
two workers can want the same one; nothing keeps the one from opening a file
anew while the other still verifies it.
-/

namespace Confos.Apt.ParallelStaging

open Confos.Apt.Staging
open Confos.Library.ByteStrings
open Confos.Library.Machines
open Confos.Library.Ownership

/-! ## The work directory -/

/-- The files that a suite is told by. -/
inductive ReleaseFile where
  | inRelease
  | release
  | signature
deriving DecidableEq

/-- A file of the work directory: `stage` names it by the hash of its address,
and the others are named by their digests. -/
inductive Path (Digest : Type) where
  | release (base : String) (file : ReleaseFile)
  | content (digest : Digest)
deriving DecidableEq

abbrev Files (Digest : Type) := Path Digest → Option Bytes

/-! ## Tasks -/

/-- What a thread does with one file. -/
inductive Command (Digest : Type) where
  /-- `stage`: write what a server has answered. -/
  | stage (base : String) (file : ReleaseFile) (bytes : Bytes)
  /-- The file is read; `gpgv` and the comparison accept nothing else. -/
  | check (base : String) (file : ReleaseFile) (bytes : Bytes)
  /-- The file is to be staged, unless its destination may have it already. -/
  | want (item : Item Digest) (optional : Bool)
deriving DecidableEq

/-- An index of a suite. -/
def Command.index {Digest : Type} (item : Item Digest) : Command Digest :=
  .want item false

/-- `fetch_deb` -/
def Command.deb {Digest : Type} (item : Item Digest) : Command Digest :=
  .want item true

/-- A suite: the address of its release files, what they hold, and the files
that they list. -/
structure Suite (Digest : Type) where
  base : String
  inRelease : Bytes
  release : Bytes
  signature : Bytes
  indices : List (Item Digest)

/-- `suite_files` -/
def Suite.commands {Digest : Type} (suite : Suite Digest) :
    List (Command Digest) :=
  [.stage suite.base .inRelease suite.inRelease,
    .stage suite.base .release suite.release,
    .stage suite.base .signature suite.signature,
    .check suite.base .inRelease suite.inRelease,
    .check suite.base .signature suite.signature,
    .check suite.base .release suite.release,
    .check suite.base .release suite.release] ++
    suite.indices.map .index

/-- What a run of the mirror is for. -/
structure Mirror (Digest : Type) where
  jobs : Nat
  suites : List (Suite Digest)
  fetchList : List (Item Digest)

/-- The tasks in the order in which the pool takes them. -/
def Mirror.tasks {Digest : Type} (mirror : Mirror Digest) :
    List (List (Command Digest)) :=
  mirror.suites.map Suite.commands ++
    mirror.fetchList.map fun item => [.deb item]

/-! ## Workers -/

/-- A task being worked at; `ended` is the exception it raised. -/
structure Worker (Digest : Type) where
  todo : List (Command Digest)
  phase : Phase
  ended : Option Outcome

namespace Worker

variable {Digest : Type} [DecidableEq Digest] (sha256 : Bytes → Digest)

def ofTask (todo : List (Command Digest)) : Worker Digest where
  todo
  phase := .test
  ended := none

def running (worker : Worker Digest) : Bool :=
  worker.todo ≠ [] && worker.ended = none

def finished (worker : Worker Digest) : Bool :=
  worker.todo = []

/-- The worker and the files behind a step, and what the step has staged. -/
structure Result (Digest : Type) where
  worker : Worker Digest
  files : Files Digest
  staged : Option Digest

/-- One step of `stage`. -/
def actStage (base : String) (file : ReleaseFile) (bytes : Bytes)
    (rest : List (Command Digest)) (worker : Worker Digest)
    (files : Files Digest) (choice : Choice) : Option (Result Digest) :=
  let path := Path.release base file
  match worker.phase, choice with
  | .test, .giveUp =>
      some ⟨{ worker with ended := some .failed }, files, none⟩
  | .test, .go =>
      some
        ⟨{ worker with phase := .writing bytes 0 },
          Function.update files path (some []), none⟩
  | .writing response position, .block length =>
      if position < response.length then
        let block := (response.drop position).take (length + 1)
        some
          ⟨{ worker with phase := .writing response (position + block.length) },
            Function.update files path
              ((files path).map fun content =>
                writeAt content position block),
            none⟩
      else
        none
  | .writing response position, .go =>
      if position < response.length then
        none
      else
        some ⟨ofTask rest, files, none⟩
  | _, _ => none

/-- The worker and the files behind a step with a file of a digest. -/
def behind (item : Item Digest) (rest : List (Command Digest))
    (worker : Worker Digest) (files : Files Digest)
    (result : Outcome × Option Bytes) : Result Digest :=
  let after := Function.update files (.content item.digest) result.2
  match result.1 with
  | .on phase => ⟨{ worker with phase }, after, none⟩
  | .done => ⟨ofTask rest, after, some item.digest⟩
  | outcome => ⟨{ worker with ended := some outcome }, after, none⟩

/-- One step with a file that is named by its digest. -/
def actWant (item : Item Digest) (optional : Bool)
    (rest : List (Command Digest)) (worker : Worker Digest)
    (files : Files Digest) (choice : Choice) : Option (Result Digest) :=
  match worker.phase, choice, optional with
  | .test, .present, true => some ⟨ofTask rest, files, none⟩
  | _, _, _ =>
      (item.act sha256 worker.phase (files (.content item.digest)) choice).map
        (behind item rest worker files)

/-- One step of a worker. -/
def act (worker : Worker Digest) (files : Files Digest) (choice : Choice) :
    Option (Result Digest) :=
  if worker.ended.isSome then
    none
  else
    match worker.todo with
    | [] => none
    | .stage base file bytes :: rest =>
        actStage base file bytes rest worker files choice
    | .check base file bytes :: rest =>
        match worker.phase, choice with
        | .test, .go =>
            if files (.release base file) = some bytes then
              some ⟨ofTask rest, files, none⟩
            else
              some ⟨{ worker with ended := some .untrusted }, files, none⟩
        | _, _ => none
    | .want item optional :: rest =>
        actWant sha256 item optional rest worker files choice

end Worker

/-! ## The pool -/

structure State (Digest : Type) where
  files : Files Digest
  workers : Nat → Worker Digest
  /-- How many tasks the pool has begun. -/
  started : Nat
  staged : List Digest

inductive Action where
  /-- A thread of the pool begins the next task. -/
  | start
  | act (worker : Nat) (choice : Choice)

section

variable {Digest : Type} [DecidableEq Digest] (sha256 : Bytes → Digest)
  (mirror : Mirror Digest)

def initial (files : Files Digest) : State Digest where
  files
  workers worker := .ofTask (mirror.tasks.getD worker [])
  started := 0
  staged := []

/-- The pool begins a task if a thread is idle, and the fetch list is there
only when every suite has been read. -/
def canStart (state : State Digest) : Bool :=
  state.started < mirror.tasks.length &&
    (List.range state.started).countP
        (fun worker => (state.workers worker).running) <
      mirror.jobs &&
    (state.started < mirror.suites.length ||
      (List.range mirror.suites.length).all fun worker =>
        (state.workers worker).finished)

def step (state : State Digest) : Action → Option (State Digest)
  | .start =>
      if canStart mirror state then
        some { state with started := state.started + 1 }
      else
        none
  | .act worker choice =>
      if worker < state.started then
        ((state.workers worker).act sha256 state.files choice).map
          fun result =>
            { state with
              files := result.files
              workers := Function.update state.workers worker result.worker
              staged := state.staged ++ result.staged.toList }
      else
        none

end

end Confos.Apt.ParallelStaging
