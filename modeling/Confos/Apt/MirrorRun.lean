import Confos.Apt.MirrorSelection
import Confos.Apt.ParallelStaging

/-!
# A run of the mirror

The suites are read in a pool of threads, and the main thread collects the
indexes of those that are done.  Then the pool fetches packages, and then it
uploads: the packages, the indexes and, one by one, the release files.  A step
of a thread is one operation on a file, one answer of a server or one request.
-/

namespace Confos.Apt.MirrorRun

open Confos.Apt.MirrorSelection
open Confos.Apt.ParallelStaging (ReleaseFile)
open Confos.Apt.Staging
open Confos.Apt.VerifyCache (setItem)
open Confos.Library.ByteStrings
open Confos.Library.Text (splitLast)

/-- What a run is given; a name of the work directory is the place of a file. -/
structure Mirror (Place : Type) where
  tools : Tools
  place : String → Place
  suites : List Suite
  cache : List Cached
  /-- `--package` -/
  packages : List String
  dryRun : Bool

abbrev Files (Place : Type) := Place → Option Bytes

/-! ## Files by their digests -/

/-- A file as a release or a stanza lists it. -/
structure Want where
  digest : String
  size : Int
deriving DecidableEq, Repr

/-- A negative size is the size of no file. -/
def Want.item (want : Want) (file : Option Bytes) : Item String where
  digest := want.digest
  size :=
    if want.size < 0 then
      (file.map List.length).getD 0 + 1
    else
      want.size.toNat

def Want.act (tools : Tools) (want : Want) (phase : Phase)
    (file : Option Bytes) (choice : Choice) :
    Option (Outcome × Option Bytes) :=
  (want.item file).act tools.sha256 phase file choice

/-! ## Suites -/

def fileName : ReleaseFile → String
  | .inRelease => "InRelease"
  | .release => "Release"
  | .signature => "Release.gpg"

/-- `stage` names a release file by the hash of its address. -/
def stageName (tools : Tools) (suite : Suite) (file : ReleaseFile) : String :=
  tools.sha256
    (utf8Bytes (suite.upstream ++ "/" ++ suite.dists ++ "/" ++ fileName file))

/-- An InRelease file that `gpgv` accepts, and what it lists. -/
structure Signed (tools : Tools) where
  raw : Bytes
  hashes : Hashes
  signed :
    ∃ text, tools.gpgv raw = some text ∧
      releaseHashes tools text = some hashes

def readInRelease (tools : Tools) (raw : Bytes) : Option (Signed tools) :=
  match accepted : tools.gpgv raw with
  | none => none
  | some text =>
      match listed : releaseHashes tools text with
      | none => none
      | some hashes => some ⟨raw, hashes, text, accepted, listed⟩

/-- The entry of a release for a path. -/
def Signed.want? {tools : Tools} (signed : Signed tools) (path : String) :
    Option Want :=
  (signed.hashes.lookup path).map fun listed =>
    { digest := listed.1, size := listed.2 }

/-- Where `suite_files` is. -/
inductive SuitePhase (tools : Tools) where
  | fetch (file : ReleaseFile)
  | opening (file : ReleaseFile) (bytes : Bytes)
  | writing (file : ReleaseFile) (bytes : Bytes)
  | checkInRelease
  | checkSignature (signed : Signed tools)
  | compare (signed : Signed tools)
  | index (signed : Signed tools) (path : String) (rest : List String)
      (phase : Phase)
  | done (signed : Signed tools)
  | failed

def SuitePhase.isDone {tools : Tools} : SuitePhase tools → Bool
  | .done _ => true
  | _ => false

/-- A phase, the files then, and what has been accepted by its digest. -/
structure SuiteResult (Place : Type) (tools : Tools) where
  phase : SuitePhase tools
  files : Files Place
  staged : Option Bytes := none

def nextIndex {tools : Tools} (signed : Signed tools) :
    List String → SuitePhase tools
  | [] => .done signed
  | path :: rest => .index signed path rest .test

def afterStage {tools : Tools} : ReleaseFile → SuitePhase tools
  | .inRelease => .fetch .release
  | .release => .fetch .signature
  | .signature => .checkInRelease

section

variable {Place : Type} [DecidableEq Place] (mirror : Mirror Place)

/-- A staged release file. -/
def Mirror.stagePlace (suite : Suite) (file : ReleaseFile) : Place :=
  mirror.place (stageName mirror.tools suite file)

def behindIndex (signed : Signed mirror.tools) (path : String)
    (rest : List String) (files : Files Place) :
    Outcome × Option Bytes → SuiteResult Place mirror.tools
  | (.on phase, _) => { phase := .index signed path rest phase, files }
  | (.done, file) =>
      { phase := nextIndex signed rest, files, staged := file }
  | (_, _) => { phase := .failed, files }

/-- One step of `suite_files`. -/
def suiteStep (suite : Suite) (phase : SuitePhase mirror.tools)
    (files : Files Place) (choice : Choice) :
    Option (SuiteResult Place mirror.tools) :=
  let place := mirror.stagePlace suite
  match phase, choice with
  | .fetch file, .answer bytes => some { phase := .opening file bytes, files }
  | .fetch _, .giveUp => some { phase := .failed, files }
  | .opening file bytes, .go =>
      some
        { phase := .writing file bytes
          files := Function.update files (place file) (some []) }
  | .writing file bytes, .go =>
      some
        { phase := afterStage file
          files :=
            Function.update files (place file)
              ((files (place file)).map (writeAt · 0 bytes)) }
  | .checkInRelease, .go =>
      match (files (place .inRelease)).bind (readInRelease mirror.tools) with
      | none => some { phase := .failed, files }
      | some signed => some { phase := .checkSignature signed, files }
  | .checkSignature signed, .go =>
      match files (place .signature), files (place .release) with
      | some signature, some release =>
          if mirror.tools.gpgvDetached signature release then
            some { phase := .compare signed, files }
          else
            some { phase := .failed, files }
      | _, _ => some { phase := .failed, files }
  | .compare signed, .go =>
      match
        (files (place .release)).bind (releaseHashes mirror.tools)
      with
      | none => some { phase := .failed, files }
      | some hashes =>
          if hashes.isPerm signed.hashes then
            some { phase := nextIndex signed suite.wanted, files }
          else
            some { phase := .failed, files }
  | .index signed path rest phase, choice =>
      match signed.want? path with
      | none => some { phase := .failed, files }
      | some want =>
          (want.act mirror.tools phase (files (mirror.place want.digest))
              choice).map fun result =>
            behindIndex mirror signed path rest
              (Function.update files (mirror.place want.digest) result.2)
              result
  | _, _ => none

/-! ## Packages -/

/-- Where `fetch_deb` is. -/
inductive FetchPhase where
  | head
  | item (phase : Phase)
  | done
  | failed
deriving DecidableEq

/-- What the servers are asked for, in order. -/
inductive Round where
  | debs
  | indices
  | releases
deriving DecidableEq, Repr

inductive Event where
  | put (round : Round) (url : String) (bytes : Bytes)
  | present (url : String)
deriving DecidableEq, Repr

/-- `debs` is a dictionary that the threads share. -/
structure FetchResult (Place : Type) where
  phase : FetchPhase
  files : Files Place
  debs : Debs
  staged : Option Bytes := none
  events : List Event := []

def behindFetch (fetch : Fetch) (files : Files Place) (debs : Debs) :
    Outcome × Option Bytes → FetchResult Place
  | (.on phase, _) => { phase := .item phase, files, debs }
  | (.done, file) =>
      { phase := .done
        files
        debs :=
          setItem debs fetch.url (.work fetch.entry.sha256, fetch.entry)
        staged := file }
  | (_, _) => { phase := .failed, files, debs }

/-- One step of `fetch_deb`. -/
def fetchStep (fetch : Fetch) (phase : FetchPhase) (files : Files Place)
    (debs : Debs) (choice : Choice) : Option (FetchResult Place) :=
  let place := mirror.place fetch.entry.sha256
  match mirror.tools.int fetch.entry.size.toList, phase, choice with
  | none, .head, _ => some { phase := .failed, files, debs }
  | some _, .head, .present =>
      some { phase := .done, files, debs, events := [.present fetch.url] }
  | some _, .head, .go => some { phase := .item .test, files, debs }
  | some _, .head, .giveUp => some { phase := .failed, files, debs }
  | some size, .item phase, choice =>
      (Want.act mirror.tools { digest := fetch.entry.sha256, size } phase
          (files place) choice).map fun result =>
        behindFetch fetch (Function.update files place result.2) debs result
  | _, _, _ => none

/-! ## Uploads -/

structure Task where
  url : String
  source : Source
deriving DecidableEq, Repr

/-- Where `put` is. -/
inductive PutPhase where
  | waiting
  | sending
  | done
  | failed
deriving DecidableEq

def body (files : Files Place) : Source → Option Bytes
  | .cache content => some content
  | .work name => files (mirror.place name)

/-- One step of `put`; every attempt reads the file again. -/
def putStep (round : Round) (task : Task) (phase : PutPhase)
    (files : Files Place) (choice : Choice) :
    Option (PutPhase × List Event) :=
  match body mirror files task.source, phase, choice with
  | none, .waiting, _ => some (.failed, [])
  | none, .sending, _ => some (.failed, [])
  | some _, .waiting, .present => some (.done, [.present task.url])
  | some bytes, .waiting, .go =>
      if mirror.dryRun then
        some (.done, [])
      else
        some (.sending, [.put round task.url bytes])
  | some bytes, .sending, .retry =>
      some (.sending, [.put round task.url bytes])
  | some _, .sending, .go => some (.done, [])
  | some _, .waiting, .giveUp => some (.failed, [])
  | some _, .sending, .giveUp => some (.failed, [])
  | _, _, _ => none

/-! ## The main thread -/

inductive MainPhase where
  | collecting
  | fetching
  | putting (round : Round)
  | finished
  | failed
deriving DecidableEq

/-- `staged` is what has been accepted by its digest so far. -/
structure State (tools : Tools) (Place : Type) where
  files : Files Place
  suites : Nat → SuitePhase tools
  fetches : Nat → FetchPhase
  puts : Nat → PutPhase
  main : MainPhase
  /-- The indexes that the main thread has still to collect. -/
  toRead : List (Nat × String)
  sets : Sets
  uploads : List Task
  fetchList : List Fetch
  debs : Debs
  log : List Event
  staged : List Bytes

def initial (files : Files Place) : State mirror.tools Place where
  files
  suites _ := .fetch .inRelease
  fetches _ := .head
  puts _ := .waiting
  main := .collecting
  toRead :=
    mirror.suites.zipIdx.flatMap fun suite =>
      suite.1.wanted.map fun path => (suite.2, path)
  sets := []
  uploads := []
  fetchList := []
  debs := []
  log := []
  staged := []

/-- Where an index goes to: its path, and `by-hash`. -/
def indexUrls (suite : Suite) (path digest : String) : List String :=
  let directory :=
    ((splitLast '/' path.toList).map (·.1)).getD path.toList
  [suite.ours ++ "/" ++ suite.dists ++ "/" ++ path,
    suite.ours ++ "/" ++ suite.dists ++ "/" ++ String.ofList directory ++
      "/by-hash/SHA256/" ++ digest]

variable (state : State mirror.tools Place)

/-- The main thread collects one index of a suite that is done. -/
def readIndex (worker : Nat) (path : String) (rest : List (Nat × String)) :
    Option (State mirror.tools Place) :=
  match mirror.suites[worker]?, state.suites worker with
  | some suite, .done signed =>
      match signed.want? path with
      | none => none
      | some want =>
          let tasks :=
            (indexUrls suite path want.digest).map fun url =>
              { url, source := .work want.digest }
          let read :=
            { state with toRead := rest, uploads := state.uploads ++ tasks }
          if isBinary path then
            match
              (state.files (mirror.place want.digest)).bind
                mirror.tools.decompress
            with
            | none => some { state with main := .failed }
            | some index =>
                some
                  { read with
                    sets :=
                      (packagesIn index).foldl (addEntry suite) state.sets }
          else
            some read
  | _, _ => none

def tasksOf : Round → List Task
  | .debs => state.debs.map fun deb => { url := deb.1, source := deb.2.1 }
  | .indices => state.uploads
  | .releases =>
      mirror.suites.flatMap fun suite =>
        [ReleaseFile.inRelease, .release, .signature].map fun file =>
          { url := suite.ours ++ "/" ++ suite.dists ++ "/" ++ fileName file
            source := .work (stageName mirror.tools suite file) }

def nextRound : Round → MainPhase
  | .debs => .putting .indices
  | .indices => .putting .releases
  | .releases => .finished

def suitesDone (count : Nat) : Bool :=
  (List.range count).all fun worker => (state.suites worker).isDone

def fetchesDone : Bool :=
  (List.range state.fetchList.length).all fun worker =>
    state.fetches worker = .done

def putsDone (count : Nat) : Bool :=
  (List.range count).all fun worker => state.puts worker = .done

/-- One step of the main thread. -/
def mainStep : Option (State mirror.tools Place) :=
  match state.main, state.toRead with
  | .collecting, (worker, path) :: rest =>
      if suitesDone mirror state (worker + 1) then
        readIndex mirror state worker path rest
      else
        none
  | .collecting, [] =>
      if suitesDone mirror state mirror.suites.length then
        match select mirror.tools state.sets mirror.cache mirror.packages with
        | none => some { state with main := .failed }
        | some (debs, fetchList) =>
            some
              { state with
                main := .fetching, debs, fetchList
                fetches := fun _ => .head }
      else
        none
  | .fetching, _ =>
      if fetchesDone mirror state then
        some
          { state with main := .putting .debs, puts := fun _ => .waiting }
      else
        none
  | .putting round, _ =>
      if putsDone mirror state (tasksOf mirror state round).length then
        some
          { state with main := nextRound round, puts := fun _ => .waiting }
      else
        none
  | _, _ => none

/-! ## The run -/

inductive Action where
  | suite (worker : Nat) (choice : Choice)
  | main
  | fetch (worker : Nat) (choice : Choice)
  | put (worker : Nat) (choice : Choice)
  /-- A file of the work directory is removed. -/
  | remove (name : String)

/-- The tasks of a pool are taken up in any order, by any number of threads;
the release files are uploaded by the main thread. -/
def step : Action → Option (State mirror.tools Place)
  | .suite worker choice =>
      match mirror.suites[worker]? with
      | none => none
      | some suite =>
          (suiteStep mirror suite (state.suites worker) state.files
              choice).map fun result =>
            { state with
              files := result.files
              suites := Function.update state.suites worker result.phase
              staged := state.staged ++ result.staged.toList }
  | .main => mainStep mirror state
  | .fetch worker choice =>
      match state.main, state.fetchList[worker]? with
      | .fetching, some fetch =>
          (fetchStep mirror fetch (state.fetches worker) state.files
              state.debs choice).map fun result =>
            { state with
              files := result.files
              fetches := Function.update state.fetches worker result.phase
              debs := result.debs
              log := state.log ++ result.events
              staged := state.staged ++ result.staged.toList }
      | _, _ => none
  | .put worker choice =>
      match state.main with
      | .putting round =>
          match (tasksOf mirror state round)[worker]? with
          | none => none
          | some task =>
              if round = .releases ∧ ¬ putsDone mirror state worker then
                none
              else
                (putStep mirror round task (state.puts worker) state.files
                    choice).map fun result =>
                  { state with
                    puts := Function.update state.puts worker result.1
                    log := state.log ++ result.2 }
      | _ => none
  | .remove name =>
      some
        { state with
          files := Function.update state.files (mirror.place name) none }

end

/-! ## A small mirror -/

/-- An index with one package, whose archive has the digest. -/
def plainIndex (digest : String) : Bytes :=
  utf8Bytes
    ("Package: p\nVersion: 1\nArchitecture: a\nFilename: p.deb\nSize: 1\n" ++
      "SHA256: " ++ digest ++ "\n")

/-- A byte string is its own digest and its own signature; `x` and `z` are
packed indexes. -/
def plainTools : Tools where
  sha256 bytes := String.ofList (bytes.map fun byte => Char.ofNat byte.toNat)
  gpgv := some
  gpgvDetached _ _ := true
  decompress packed :=
    if packed = utf8Bytes "x" then
      some (plainIndex "y")
    else if packed = utf8Bytes "z" then
      some (plainIndex "e")
    else
      none
  int text := if text = ['1'] then some 1 else none
  unquote := id
  compareVersions _ _ := some 0

def plainSuite : Suite where
  ours := "o"
  upstream := "u"
  suite := "s"
  components := ["c"]
  arches := ["a"]
  source := false

def plainMirror : Mirror String where
  tools := plainTools
  place := id
  suites := [plainSuite]
  cache := []
  packages := ["p"]
  dryRun := false

def plainRelease : Bytes :=
  utf8Bytes "SHA256:\n x 1 c/binary-a/Packages.xz\n"

/-- A file is requested, written in one block, and verified. -/
def stageActions (take : Choice → Action) (content : Bytes) : List Action :=
  [.go, .answer content, .block 0, .go, .go, .go].map take

/-- The release files are fetched and verified. -/
def releaseActions (take : Choice → Action) : List Action :=
  [.answer plainRelease, .go, .go, .answer plainRelease, .go, .go,
    .answer plainRelease, .go, .go, .go, .go, .go].map take

def plainActions : List Action :=
  releaseActions (.suite 0) ++ stageActions (.suite 0) (utf8Bytes "x") ++
    [.main, .main, .fetch 0 .go] ++
    stageActions (.fetch 0) (utf8Bytes "y") ++
    [.main, .put 0 .go, .put 0 .go, .main, .put 0 .go, .put 0 .go, .put 1 .go,
      .put 1 .go, .main, .put 0 .go, .put 0 .go]

end Confos.Apt.MirrorRun
