import Confos.Apt.MirrorRun

/-!
# What the steps of the mirror can do

Each thread's step function is inverted once; what follows of runs uses these
cases only.
-/

namespace Confos.Apt.MirrorRun

open Confos.Apt.MirrorSelection
open Confos.Apt.ParallelStaging (ReleaseFile)
open Confos.Apt.Staging
open Confos.Apt.VerifyCache (setItem)
open Confos.Library.ByteStrings

/-! ## A file by its digest -/

/-- A file that has been requested is replaced until it is verified. -/
def replaces : Phase → Bool
  | .test | .found => false
  | _ => true

/-- What a step with a file can do. -/
inductive Want.Acts (tools : Tools) (want : Want) (phase : Phase)
    (file : Option Bytes) : Choice → Outcome → Option Bytes → Prop where
  | on {choice : Choice} {next : Phase} {after : Option Bytes}
      (further :
        replaces next = true ∨ after = file ∧ replaces phase = false) :
      want.Acts tools phase file choice (.on next) after
  | accept {content : Bytes} (ready : phase = .found ∨ phase = .hash)
      (held : file = some content)
      (right : tools.sha256 content = want.digest) :
      want.Acts tools phase file .go .done file
  | fail {choice : Choice} {outcome : Outcome}
      (failed : outcome = .untrusted ∨ outcome = .failed) :
      want.Acts tools phase file choice outcome file

theorem Want.acts_of_act
    {tools : Tools} {want : Want} {phase : Phase}
    {file after : Option Bytes} {choice : Choice} {outcome : Outcome}
    (acted : want.act tools phase file choice = some (outcome, after)) :
    want.Acts tools phase file choice outcome after := by
  cases Item.acts_of_act tools.sha256 acted with
  | absent => exact .on (Or.inl rfl)
  | there content => exact .on (Or.inr ⟨rfl, rfl⟩)
  | reuse content right => exact .accept (Or.inl rfl) rfl right
  | replace content wrong => exact .on (Or.inl rfl)
  | opened file response => exact .on (Or.inl rfl)
  | write file response position length before => exact .on (Or.inl rfl)
  | written file response position all => exact .on (Or.inl rfl)
  | again phase file => exact .on (Or.inl rfl)
  | fitting content fits => exact .on (Or.inl rfl)
  | misfit content misfits => exact .fail (Or.inl rfl)
  | verified content right => exact .accept (Or.inr rfl) rfl right
  | tampered content wrong => exact .fail (Or.inl rfl)
  | failed phase file choice => exact .fail (Or.inr rfl)

section

variable {Place : Type} [DecidableEq Place] {mirror : Mirror Place}

/-! ## Suites -/

/-- The release files are still being fetched and checked. -/
def SuitePhase.isEarly {tools : Tools} : SuitePhase tools → Bool
  | .index _ _ _ _ | .done _ | .failed => false
  | _ => true

/-- What a step of `suite_files` can do. -/
inductive SuiteActs (mirror : Mirror Place) (suite : Suite)
    (files : Files Place) :
    SuitePhase mirror.tools → Choice → SuiteResult Place mirror.tools →
      Prop where
  | release {phase next : SuitePhase mirror.tools} {choice : Choice}
      (before : phase.isEarly = true)
      (after : next.isEarly = true ∨ next = .failed) :
      SuiteActs mirror suite files phase choice { phase := next, files }
  | stage {phase next : SuitePhase mirror.tools} {choice : Choice}
      (file : ReleaseFile) (value : Option Bytes)
      (before : phase.isEarly = true) (after : next.isEarly = true) :
      SuiteActs mirror suite files phase choice
        { phase := next
          files :=
            Function.update files (mirror.stagePlace suite file) value }
  | start {signed : Signed mirror.tools} {choice : Choice} :
      SuiteActs mirror suite files (.compare signed) choice
        { phase := nextIndex signed suite.wanted, files }
  | work {signed : Signed mirror.tools} {path : String}
      {rest : List String} {phase next : Phase} {choice : Choice}
      {want : Want} {value : Option Bytes}
      (listed : signed.want? path = some want)
      (further :
        replaces next = true ∨
          value = files (mirror.place want.digest) ∧
            replaces phase = false) :
      SuiteActs mirror suite files (.index signed path rest phase) choice
        { phase := .index signed path rest next
          files := Function.update files (mirror.place want.digest) value }
  | accept {signed : Signed mirror.tools} {path : String}
      {rest : List String} {phase : Phase} {want : Want} {content : Bytes}
      (listed : signed.want? path = some want)
      (ready : phase = .found ∨ phase = .hash)
      (held : files (mirror.place want.digest) = some content)
      (right : mirror.tools.sha256 content = want.digest) :
      SuiteActs mirror suite files (.index signed path rest phase) .go
        { phase := nextIndex signed rest, files, staged := some content }
  | fail {signed : Signed mirror.tools} {path : String}
      {rest : List String} {phase : Phase} {choice : Choice} :
      SuiteActs mirror suite files (.index signed path rest phase) choice
        { phase := .failed, files }

theorem isEarly_afterStage {tools : Tools} (file : ReleaseFile) :
    (afterStage file : SuitePhase tools).isEarly = true := by
  cases file with
  | inRelease => rfl
  | release => rfl
  | signature => rfl

theorem suiteActs_of_index
    {suite : Suite} {files : Files Place} {choice : Choice}
    {result : SuiteResult Place mirror.tools}
    {signed : Signed mirror.tools} {path : String} {rest : List String}
    {phase : Phase}
    (stepped :
      suiteStep mirror suite (.index signed path rest phase) files choice =
        some result) :
    SuiteActs mirror suite files (.index signed path rest phase) choice
      result := by
  simp only [suiteStep] at stepped
  split at stepped
  · cases stepped
    exact .fail
  · next want listed =>
      rcases Option.map_eq_some_iff.1 stepped with
        ⟨⟨outcome, after⟩, acted, rfl⟩
      cases Want.acts_of_act acted with
      | on further => exact .work listed further
      | accept ready held right =>
          dsimp only
          rw [Function.update_eq_self, held]
          exact .accept listed ready held right
      | fail failed =>
          dsimp only
          rw [Function.update_eq_self]
          rcases failed with rfl | rfl
          · exact .fail
          · exact .fail

theorem suiteActs_of_suiteStep
    {suite : Suite} {files : Files Place}
    {phase : SuitePhase mirror.tools} {choice : Choice}
    {result : SuiteResult Place mirror.tools}
    (stepped : suiteStep mirror suite phase files choice = some result) :
    SuiteActs mirror suite files phase choice result := by
  cases phase with
  | fetch file =>
      cases choice with
      | answer bytes =>
          cases stepped
          exact .release rfl (Or.inl rfl)
      | giveUp =>
          cases stepped
          exact .release rfl (Or.inr rfl)
      | _ => cases stepped
  | opening file bytes =>
      cases choice with
      | go =>
          cases stepped
          exact .stage file _ rfl rfl
      | _ => cases stepped
  | writing file bytes =>
      cases choice with
      | go =>
          cases stepped
          exact .stage file _ rfl (isEarly_afterStage file)
      | _ => cases stepped
  | checkInRelease =>
      cases choice with
      | go =>
          simp only [suiteStep] at stepped
          split at stepped
          · cases stepped
            exact .release rfl (Or.inr rfl)
          · cases stepped
            exact .release rfl (Or.inl rfl)
      | _ => cases stepped
  | checkSignature signed =>
      cases choice with
      | go =>
          simp only [suiteStep] at stepped
          split at stepped
          · split at stepped
            · cases stepped
              exact .release rfl (Or.inl rfl)
            · cases stepped
              exact .release rfl (Or.inr rfl)
          · cases stepped
            exact .release rfl (Or.inr rfl)
      | _ => cases stepped
  | compare signed =>
      cases choice with
      | go =>
          simp only [suiteStep] at stepped
          split at stepped
          · cases stepped
            exact .release rfl (Or.inr rfl)
          · split at stepped
            · cases stepped
              exact .start
            · cases stepped
              exact .release rfl (Or.inr rfl)
      | _ => cases stepped
  | index signed path rest phase => exact suiteActs_of_index stepped
  | done signed => cases stepped
  | failed => cases stepped

/-! ## Packages -/

/-- What a step of `fetch_deb` can do. -/
inductive FetchActs (mirror : Mirror Place) (fetch : Fetch)
    (files : Files Place) (debs : Debs) :
    FetchPhase → Choice → FetchResult Place → Prop where
  | present {choice : Choice} :
      FetchActs mirror fetch files debs .head choice
        { phase := .done, files, debs, events := [.present fetch.url] }
  | absent {choice : Choice} :
      FetchActs mirror fetch files debs .head choice
        { phase := .item .test, files, debs }
  | work {phase next : Phase} {choice : Choice} {value : Option Bytes}
      (further :
        replaces next = true ∨
          value = files (mirror.place fetch.entry.sha256) ∧
            replaces phase = false) :
      FetchActs mirror fetch files debs (.item phase) choice
        { phase := .item next
          files :=
            Function.update files (mirror.place fetch.entry.sha256) value
          debs }
  | accept {phase : Phase} {content : Bytes}
      (ready : phase = .found ∨ phase = .hash)
      (held : files (mirror.place fetch.entry.sha256) = some content)
      (right : mirror.tools.sha256 content = fetch.entry.sha256) :
      FetchActs mirror fetch files debs (.item phase) .go
        { phase := .done
          files
          debs :=
            setItem debs fetch.url (.work fetch.entry.sha256, fetch.entry)
          staged := some content }
  | fail {phase : FetchPhase} {choice : Choice} (unended : phase ≠ .done) :
      FetchActs mirror fetch files debs phase choice
        { phase := .failed, files, debs }

theorem fetchActs_of_fetchStep
    {fetch : Fetch} {files : Files Place} {debs : Debs} {phase : FetchPhase}
    {choice : Choice} {result : FetchResult Place}
    (stepped : fetchStep mirror fetch phase files debs choice = some result) :
    FetchActs mirror fetch files debs phase choice result := by
  simp only [fetchStep] at stepped
  split at stepped
  · cases stepped
    exact .fail (by simp)
  · cases stepped
    exact .present
  · cases stepped
    exact .absent
  · cases stepped
    exact .fail (by simp)
  · rcases Option.map_eq_some_iff.1 stepped with
      ⟨⟨outcome, after⟩, acted, rfl⟩
    cases Want.acts_of_act acted with
    | on further => exact .work further
    | accept ready held right =>
        dsimp only
        rw [Function.update_eq_self, held]
        exact .accept ready held right
    | fail failed =>
        dsimp only
        rw [Function.update_eq_self]
        rcases failed with rfl | rfl
        · exact .fail (by simp)
        · exact .fail (by simp)
  · cases stepped

end

section

variable {Place : Type} {mirror : Mirror Place}

/-! ## Uploads -/

/-- What a step of `put` can do. -/
inductive PutActs (mirror : Mirror Place) (round : Round) (task : Task)
    (files : Files Place) : PutPhase → PutPhase → List Event → Prop where
  | present :
      PutActs mirror round task files .waiting .done [.present task.url]
  | dry (isDry : mirror.dryRun = true) :
      PutActs mirror round task files .waiting .done []
  | send {phase : PutPhase} {bytes : Bytes}
      (wet : phase = .sending ∨ mirror.dryRun = false)
      (held : body mirror files task.source = some bytes) :
      PutActs mirror round task files phase .sending
        [.put round task.url bytes]
  | answered : PutActs mirror round task files .sending .done []
  | fail {phase : PutPhase} (unended : phase ≠ .done) :
      PutActs mirror round task files phase .failed []

theorem putActs_of_putStep
    {round : Round} {task : Task} {files : Files Place} {phase : PutPhase}
    {choice : Choice} {result : PutPhase × List Event}
    (stepped :
      putStep mirror round task phase files choice = some result) :
    PutActs mirror round task files phase result.1 result.2 := by
  simp only [putStep] at stepped
  split at stepped
  · cases stepped
    exact .fail (by simp)
  · cases stepped
    exact .fail (by simp)
  · cases stepped
    exact .present
  · next held =>
      split at stepped
      · next isDry =>
          cases stepped
          exact .dry isDry
      · next wet =>
          cases stepped
          exact .send (Or.inr (Bool.eq_false_iff.2 wet)) held
  · next held =>
      cases stepped
      exact .send (Or.inl rfl) held
  · cases stepped
    exact .answered
  · cases stepped
    exact .fail (by simp)
  · cases stepped
    exact .fail (by simp)
  · cases stepped

theorem PutActs.events_eq
    {round : Round} {task : Task} {files : Files Place}
    {phase next : PutPhase} {events : List Event}
    (acts : PutActs mirror round task files phase next events) :
    events = [] ∨ ∃ event, events = [event] := by
  cases acts with
  | present => exact Or.inr ⟨_, rfl⟩
  | send => exact Or.inr ⟨_, rfl⟩
  | _ => exact Or.inl rfl

/-! ## The main thread -/

theorem suitesDone_iff
    {state : State mirror.tools Place} {count : Nat} :
    suitesDone mirror state count = true ↔
      ∀ worker < count, ∃ signed, state.suites worker = .done signed := by
  rw [suitesDone, List.all_eq_true]
  constructor
  · intro all worker below
    have isDone := all worker (List.mem_range.2 below)
    cases phase : state.suites worker with
    | done signed => exact ⟨signed, rfl⟩
    | _ =>
        rw [phase] at isDone
        cases isDone
  · intro all worker member
    rcases all worker (List.mem_range.1 member) with ⟨signed, isDone⟩
    rw [isDone]
    rfl

theorem fetchesDone_iff
    {state : State mirror.tools Place} :
    fetchesDone mirror state = true ↔
      ∀ worker < state.fetchList.length, state.fetches worker = .done := by
  simp [fetchesDone]

theorem putsDone_iff
    {state : State mirror.tools Place} {count : Nat} :
    putsDone mirror state count = true ↔
      ∀ worker < count, state.puts worker = .done := by
  simp [putsDone]

/-- The uploads of an index. -/
def indexTasks (suite : Suite) (path : String) (want : Want) : List Task :=
  (indexUrls suite path want.digest).map fun url =>
    { url, source := .work want.digest }

/-- What the stanzas of an index add to the pinned sets. -/
def Collects (mirror : Mirror Place) (suite : Suite) (path : String)
    (file : Option Bytes) (before after : Sets) : Prop :=
  isBinary path = false ∧ after = before ∨
    ∃ content index,
      file = some content ∧ mirror.tools.decompress content = some index ∧
        isBinary path = true ∧
          after = (packagesIn index).foldl (addEntry suite) before

/-- What a step of the main thread can do. -/
inductive MainActs (mirror : Mirror Place)
    (state : State mirror.tools Place) :
    State mirror.tools Place → Prop where
  | read {worker : Nat} {path : String} {rest : List (Nat × String)}
      {suite : Suite} {signed : Signed mirror.tools} {want : Want}
      {sets : Sets} (collecting : state.main = .collecting)
      (reads : state.toRead = (worker, path) :: rest)
      (isSuite : mirror.suites[worker]? = some suite)
      (isDone : state.suites worker = .done signed)
      (listed : signed.want? path = some want)
      (collects :
        Collects mirror suite path
          (state.files (mirror.place want.digest)) state.sets sets) :
      MainActs mirror state
        { state with
          toRead := rest
          uploads := state.uploads ++ indexTasks suite path want
          sets }
  | stop (collecting : state.main = .collecting) :
      MainActs mirror state { state with main := .failed }
  | selected {debs : Debs} {fetchList : List Fetch}
      (collecting : state.main = .collecting) (reads : state.toRead = [])
      (done : suitesDone mirror state mirror.suites.length = true)
      (found :
        select mirror.tools state.sets mirror.cache mirror.packages =
          some (debs, fetchList)) :
      MainActs mirror state
        { state with
          main := .fetching, debs, fetchList, fetches := fun _ => .head }
  | fetched (fetching : state.main = .fetching)
      (done : fetchesDone mirror state = true) :
      MainActs mirror state
        { state with main := .putting .debs, puts := fun _ => .waiting }
  | round {round : Round} (putting : state.main = .putting round)
      (done :
        putsDone mirror state (tasksOf mirror state round).length = true) :
      MainActs mirror state
        { state with main := nextRound round, puts := fun _ => .waiting }

theorem mainActs_of_readIndex
    {state after : State mirror.tools Place} {worker : Nat} {path : String}
    {rest : List (Nat × String)} (collecting : state.main = .collecting)
    (reads : state.toRead = (worker, path) :: rest)
    (stepped : readIndex mirror state worker path rest = some after) :
    MainActs mirror state after := by
  rw [readIndex] at stepped
  split at stepped
  · next suite signed isSuite isDone =>
      split at stepped
      · cases stepped
      · next want listed =>
          dsimp only at stepped
          split at stepped
          · next binary =>
              split at stepped
              · cases stepped
                exact .stop collecting
              · next index decompressed =>
                  cases stepped
                  rcases Option.bind_eq_some_iff.1 decompressed with
                    ⟨content, held, same⟩
                  exact
                    .read collecting reads isSuite isDone listed
                      (Or.inr ⟨content, index, held, same, binary, rfl⟩)
          · next source =>
              cases stepped
              exact
                .read collecting reads isSuite isDone listed
                  (Or.inl ⟨Bool.eq_false_iff.2 source, rfl⟩)
  · cases stepped

theorem mainActs_of_mainStep
    {state after : State mirror.tools Place}
    (stepped : mainStep mirror state = some after) :
    MainActs mirror state after := by
  rw [mainStep] at stepped
  split at stepped
  · next collecting reads =>
      split at stepped
      · exact mainActs_of_readIndex collecting reads stepped
      · cases stepped
  · next collecting reads =>
      split at stepped
      · next done =>
          split at stepped
          · cases stepped
            exact .stop collecting
          · next debs fetchList found =>
              cases stepped
              exact .selected collecting reads done found
      · cases stepped
  · next fetching =>
      split at stepped
      · next done =>
          cases stepped
          exact .fetched fetching done
      · cases stepped
  · next round putting =>
      split at stepped
      · next done =>
          cases stepped
          exact .round putting done
      · cases stepped
  · cases stepped

/-! ## The run -/

section

variable {state : State mirror.tools Place} {worker : Nat}

/-- The state behind a step of a suite's thread. -/
def State.behindSuite (state : State mirror.tools Place) (worker : Nat)
    (result : SuiteResult Place mirror.tools) : State mirror.tools Place :=
  { state with
    files := result.files
    suites := Function.update state.suites worker result.phase
    staged := state.staged ++ result.staged.toList }

theorem suites_behindSuite
    (result : SuiteResult Place mirror.tools) :
    (state.behindSuite worker result).suites worker = result.phase :=
  Function.update_self worker _ _

theorem suites_behindSuite_of_ne
    {result : SuiteResult Place mirror.tools} {other : Nat}
    (different : other ≠ worker) :
    (state.behindSuite worker result).suites other = state.suites other :=
  Function.update_of_ne different _ _

/-- The state behind a step of the thread of a package. -/
def State.behindFetch (state : State mirror.tools Place) (worker : Nat)
    (result : FetchResult Place) : State mirror.tools Place :=
  { state with
    files := result.files
    fetches := Function.update state.fetches worker result.phase
    debs := result.debs
    log := state.log ++ result.events
    staged := state.staged ++ result.staged.toList }

theorem fetches_behindFetch
    (result : FetchResult Place) :
    (state.behindFetch worker result).fetches worker = result.phase :=
  Function.update_self worker _ _

theorem fetches_behindFetch_of_ne
    {result : FetchResult Place} {other : Nat} (different : other ≠ worker) :
    (state.behindFetch worker result).fetches other = state.fetches other :=
  Function.update_of_ne different _ _

/-- The state behind a step of an upload. -/
def State.behindPut (state : State mirror.tools Place) (worker : Nat)
    (phase : PutPhase) (events : List Event) : State mirror.tools Place :=
  { state with
    puts := Function.update state.puts worker phase
    log := state.log ++ events }

end

end

section

variable {Place : Type} [DecidableEq Place] {mirror : Mirror Place}

/-- What a step can do. -/
inductive StepActs (mirror : Mirror Place)
    (state : State mirror.tools Place) :
    Action → State mirror.tools Place → Prop where
  | suite {worker : Nat} {choice : Choice} {suite : Suite}
      {result : SuiteResult Place mirror.tools}
      (isSuite : mirror.suites[worker]? = some suite)
      (acts :
        SuiteActs mirror suite state.files (state.suites worker) choice
          result) :
      StepActs mirror state (.suite worker choice)
        (state.behindSuite worker result)
  | main {after : State mirror.tools Place}
      (acts : MainActs mirror state after) :
      StepActs mirror state .main after
  | fetch {worker : Nat} {choice : Choice} {fetch : Fetch}
      {result : FetchResult Place} (fetching : state.main = .fetching)
      (isFetch : state.fetchList[worker]? = some fetch)
      (acts :
        FetchActs mirror fetch state.files state.debs (state.fetches worker)
          choice result) :
      StepActs mirror state (.fetch worker choice)
        (state.behindFetch worker result)
  | put {worker : Nat} {choice : Choice} {round : Round} {task : Task}
      {phase : PutPhase} {events : List Event}
      (putting : state.main = .putting round)
      (isTask : (tasksOf mirror state round)[worker]? = some task)
      (inTurn : round = .releases → putsDone mirror state worker = true)
      (acts :
        PutActs mirror round task state.files (state.puts worker) phase
          events) :
      StepActs mirror state (.put worker choice)
        (state.behindPut worker phase events)
  | remove (name : String) :
      StepActs mirror state (.remove name)
        { state with
          files := Function.update state.files (mirror.place name) none }

theorem stepActs_of_step
    {state after : State mirror.tools Place} {action : Action}
    (stepped : step mirror state action = some after) :
    StepActs mirror state action after := by
  cases action with
  | suite worker choice =>
      simp only [step] at stepped
      split at stepped
      · cases stepped
      · next suite isSuite =>
          rcases Option.map_eq_some_iff.1 stepped with ⟨result, acted, rfl⟩
          exact .suite isSuite (suiteActs_of_suiteStep acted)
  | main => exact .main (mainActs_of_mainStep stepped)
  | fetch worker choice =>
      simp only [step] at stepped
      split at stepped
      · next fetch fetching isFetch =>
          rcases Option.map_eq_some_iff.1 stepped with ⟨result, acted, rfl⟩
          exact .fetch fetching isFetch (fetchActs_of_fetchStep acted)
      · cases stepped
  | put worker choice =>
      simp only [step] at stepped
      split at stepped
      · next round putting =>
          split at stepped
          · cases stepped
          · next task isTask =>
              split at stepped
              · cases stepped
              · next inTurn =>
                  rcases Option.map_eq_some_iff.1 stepped with
                    ⟨result, acted, rfl⟩
                  refine .put putting isTask ?_ (putActs_of_putStep acted)
                  intro releases
                  by_contra unended
                  exact inTurn ⟨releases, unended⟩
      · cases stepped
  | remove name =>
      cases stepped
      exact .remove name

theorem staged_of_stepActs
    {state after : State mirror.tools Place} {action : Action}
    (acts : StepActs mirror state action after) :
    ∀ content ∈ state.staged, content ∈ after.staged := by
  cases acts with
  | suite => exact fun _ member => List.mem_append_left _ member
  | main acts =>
      cases acts with
      | _ => exact fun _ member => member
  | fetch => exact fun _ member => List.mem_append_left _ member
  | put => exact fun _ member => member
  | remove => exact fun _ member => member

/-- A suite that is done stays done. -/
theorem done_of_stepActs
    {state after : State mirror.tools Place} {action : Action}
    (acts : StepActs mirror state action after) {worker : Nat}
    {signed : Signed mirror.tools}
    (isDone : state.suites worker = .done signed) :
    after.suites worker = .done signed := by
  cases acts with
  | suite isSuite acts =>
      rw [suites_behindSuite_of_ne]
      · exact isDone
      · rintro rfl
        rw [isDone] at acts
        cases acts with
        | release early => cases early
        | stage _ _ early => cases early
  | main acts =>
      cases acts with
      | _ => exact isDone
  | _ => exact isDone

end

end Confos.Apt.MirrorRun
