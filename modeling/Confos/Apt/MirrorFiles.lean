import Confos.Apt.MirrorSteps
import Confos.Library.Machines
import Confos.Library.Replacement

/-!
# The work directory of the mirror

A file that a thread has accepted by its digest may be replaced by another one
that wants the same digest, which then verifies it or raises an exception.  So
when the pool is done, and none of its threads failed, every accepted file is
what its name says.
-/

namespace Confos.Apt.MirrorRun

open Confos.Apt.MirrorSelection
open Confos.Apt.ParallelStaging (ReleaseFile)
open Confos.Apt.Staging
open Confos.Library.ByteStrings
open Confos.Library.Replacement

variable {Place : Type} (mirror : Mirror Place)

/-! ## Threads -/

inductive Thread where
  | suite (worker : Nat)
  | fetch (worker : Nat)

/-- The file that a suite's thread has requested and not verified yet. -/
def replacedBySuite (phase : SuitePhase mirror.tools) : Option Place :=
  match phase with
  | .index signed path _ phase =>
      if replaces phase then
        (signed.want? path).map fun want => mirror.place want.digest
      else
        none
  | _ => none

/-- The file that the thread of a package has requested and not verified. -/
def replacedByFetch (fetch : Option Fetch) (phase : FetchPhase) :
    Option Place :=
  match fetch, phase with
  | some fetch, .item phase =>
      if replaces phase then some (mirror.place fetch.entry.sha256) else none
  | _, _ => none

section

variable (state : State mirror.tools Place)

def replacedBy : Thread → Option Place
  | .suite worker => replacedBySuite mirror (state.suites worker)
  | .fetch worker =>
      replacedByFetch mirror state.fetchList[worker]? (state.fetches worker)

/-- A thread has raised an exception. -/
def Broken : Prop :=
  (∃ worker, worker < mirror.suites.length ∧
      state.suites worker = .failed) ∨
    ∃ worker, worker < state.fetchList.length ∧
      state.fetches worker = .failed

/-- What a file holds has been accepted for its name. -/
def IsGood (staged : List Bytes) (place : Place) (file : Option Bytes) :
    Prop :=
  ∀ content, file = some content →
    content ∈ staged ∧ mirror.place (mirror.tools.sha256 content) = place

/-- The place of something that has been accepted. -/
def IsSettled (staged : List Bytes) (place : Place) : Prop :=
  ∃ content ∈ staged, mirror.place (mirror.tools.sha256 content) = place

/-- Release files are not in the place of anything that has been accepted. -/
def Apart (staged : List Bytes) : Prop :=
  ∀ content ∈ staged, ∀ suite ∈ mirror.suites, ∀ file,
    mirror.place (mirror.tools.sha256 content) ≠ mirror.stagePlace suite file

structure FilesKept : Prop where
  kept :
    Kept (IsGood mirror state.staged) (IsSettled mirror state.staged)
      state.files (replacedBy mirror state) (Broken mirror state)
  unselected : state.main = .collecting → state.fetchList = []

end

variable {mirror} {staged : List Bytes}

theorem IsGood.append
    {place : Place} {file : Option Bytes}
    (good : IsGood mirror staged place file) (more : List Bytes) :
    IsGood mirror (staged ++ more) place file := by
  intro content held
  rcases good content held with ⟨member, same⟩
  exact ⟨List.mem_append_left more member, same⟩

theorem isSettled_concat
    {content : Bytes} {place : Place}
    (settled : IsSettled mirror (staged ++ [content]) place) :
    IsSettled mirror staged place ∨
      place = mirror.place (mirror.tools.sha256 content) := by
  rcases settled with ⟨found, member, same⟩
  rcases List.mem_append.1 member with earlier | new
  · exact Or.inl ⟨found, earlier, same⟩
  · rw [List.mem_singleton.1 new] at same
    exact Or.inr same.symm

theorem replacedBySuite_of_isEarly
    {phase : SuitePhase mirror.tools} (early : phase.isEarly = true) :
    replacedBySuite mirror phase = none := by
  cases phase with
  | index signed path rest phase => cases early
  | _ => rfl

/-! ## One thread takes a step -/

section

variable {state after : State mirror.tools Place} {thread : Thread}

/-- The other threads are where they were. -/
structure Turns (state after : State mirror.tools Place) (thread : Thread) :
    Prop where
  others :
    ∀ other, other ≠ thread →
      replacedBy mirror after other = replacedBy mirror state other
  broken : Broken mirror state → Broken mirror after
  main : after.main = state.main
  fetchList : after.fetchList = state.fetchList

theorem Turns.unselected
    (turns : Turns state after thread) (kept : FilesKept mirror state) :
    after.main = .collecting → after.fetchList = [] := by
  rw [turns.main, turns.fetchList]
  exact kept.unselected

/-- The thread has not requested anything. -/
theorem Turns.idle
    (turns : Turns state after thread) (kept : FilesKept mirror state)
    (idle : replacedBy mirror state thread = none)
    (staged : after.staged = state.staged)
    (files :
      ∀ place, IsSettled mirror state.staged place →
        after.files place = state.files place) :
    FilesKept mirror after where
  kept := by
    rw [staged]
    refine kept.kept.mono (fun _ settled => settled) ?_ ?_ turns.broken
    · intro place settled good
      rw [files place settled]
      exact good
    · intro other place replaced
      refine Or.inl ?_
      rw [turns.others]
      · exact replaced
      · rintro rfl
        rw [idle] at replaced
        cases replaced
  unselected := turns.unselected kept

/-- The thread replaces a file, or has requested it. -/
theorem Turns.replace
    (turns : Turns state after thread) (kept : FilesKept mirror state)
    {place : Place}
    (own :
      ∀ other, replacedBy mirror state thread = some other → other = place)
    (now : replacedBy mirror after thread = some place)
    (staged : after.staged = state.staged)
    (files : ∀ other, other ≠ place → after.files other = state.files other) :
    FilesKept mirror after where
  kept := by
    rw [staged]
    refine
      kept.kept.turn thread place (fun _ settled => Or.inl settled) ?_
        turns.others own turns.broken (Or.inr now)
    intro other different good
    rw [files other different]
    exact good
  unselected := turns.unselected kept

/-- The thread has verified what a file holds. -/
theorem Turns.accept
    (turns : Turns state after thread) (kept : FilesKept mirror state)
    {place : Place} {content : Bytes}
    (own :
      ∀ other, replacedBy mirror state thread = some other → other = place)
    (held : state.files place = some content)
    (right : mirror.place (mirror.tools.sha256 content) = place)
    (staged : after.staged = state.staged ++ [content])
    (files : after.files = state.files) :
    FilesKept mirror after where
  kept := by
    rw [staged, files]
    refine
      kept.kept.turn thread place ?_ ?_ turns.others own turns.broken
        (Or.inl ?_)
    · intro other settled
      rw [← right]
      exact isSettled_concat settled
    · intro other different good
      exact good.append [content]
    · intro found isFound
      rw [held] at isFound
      cases isFound
      exact ⟨List.mem_append_right _ (List.mem_singleton_self _), right⟩
  unselected := turns.unselected kept

/-- The thread has raised an exception. -/
theorem Turns.fail
    (turns : Turns state after thread) (kept : FilesKept mirror state)
    (broken : Broken mirror after) : FilesKept mirror after where
  kept := fun _ _ => Or.inr (Or.inr broken)
  unselected := turns.unselected kept

end

/-! ## Steps of the suites -/

section

variable {state : State mirror.tools Place} {worker : Nat} {suite : Suite}

theorem turns_behindSuite
    (result : SuiteResult Place mirror.tools)
    (going : state.suites worker ≠ .failed) :
    Turns state (state.behindSuite worker result) (.suite worker) where
  others := by
    intro other different
    cases other with
    | suite party =>
        rw [replacedBy, replacedBy, suites_behindSuite_of_ne]
        rintro rfl
        exact different rfl
    | fetch party => rfl
  broken := by
    rintro (⟨party, inside, failed⟩ | broken)
    · refine Or.inl ⟨party, inside, ?_⟩
      rw [suites_behindSuite_of_ne]
      · exact failed
      · rintro rfl
        exact going failed
    · exact Or.inr broken
  main := rfl
  fetchList := rfl

theorem replacedBySuite_index
    {signed : Signed mirror.tools} {path : String} {rest : List String}
    {phase : Phase} {want : Want} (listed : signed.want? path = some want)
    {place : Place}
    (replaced :
      replacedBySuite mirror (.index signed path rest phase) = some place) :
    place = mirror.place want.digest := by
  rw [replacedBySuite] at replaced
  split at replaced
  · rw [listed] at replaced
    exact (Option.some.inj replaced).symm
  · cases replaced

theorem filesKept_of_suiteActs
    [DecidableEq Place] {choice : Choice}
    {result : SuiteResult Place mirror.tools}
    (isSuite : mirror.suites[worker]? = some suite)
    (apart : Apart mirror state.staged) (kept : FilesKept mirror state)
    (acts :
      SuiteActs mirror suite state.files (state.suites worker) choice
        result) :
    FilesKept mirror (state.behindSuite worker result) := by
  generalize before : state.suites worker = phase at acts
  have turns :
      phase ≠ .failed →
        Turns state (state.behindSuite worker result) (.suite worker) := by
    rw [← before]
    exact turns_behindSuite result
  have idle :
      replacedBySuite mirror phase = none →
        replacedBy mirror state (.suite worker) = none := by
    rw [replacedBy, before]
    exact id
  cases acts with
  | release early further =>
      refine
        (turns ?_).idle kept (idle (replacedBySuite_of_isEarly early))
          (List.append_nil _) fun _ _ => rfl
      rintro rfl
      cases early
  | stage file value early further =>
      refine
        (turns ?_).idle kept (idle (replacedBySuite_of_isEarly early))
          (List.append_nil _) ?_
      · rintro rfl
        cases early
      · rintro place ⟨content, member, same⟩
        refine Function.update_of_ne ?_ _ _
        rw [← same]
        exact
          apart content member suite (List.mem_of_getElem? isSuite) file
  | start =>
      exact
        (turns (by nofun)).idle kept (idle rfl) (List.append_nil _)
          fun _ _ => rfl
  | @work signed path rest phase next _ want value listed further =>
      rcases further with replacing | ⟨rfl, waiting⟩
      · refine
          (turns (by nofun)).replace kept ?_ ?_ (List.append_nil _)
            fun _ different => Function.update_of_ne different _ _
        · intro place replaced
          rw [replacedBy, before] at replaced
          exact replacedBySuite_index listed replaced
        · rw [replacedBy, suites_behindSuite, replacedBySuite,
            if_pos replacing, listed]
          rfl
      · refine
          (turns (by nofun)).idle kept (idle ?_) (List.append_nil _)
            fun place _ => congrFun (Function.update_eq_self _ _) place
        rw [replacedBySuite, waiting]
        rfl
  | @accept signed path rest phase want content listed ready held right =>
      refine
        (turns (by nofun)).accept kept ?_ held (congrArg _ right) rfl rfl
      intro place replaced
      rw [replacedBy, before] at replaced
      exact replacedBySuite_index listed replaced
  | fail =>
      refine (turns (by nofun)).fail kept (Or.inl ⟨worker, ?_, ?_⟩)
      · exact (List.getElem?_eq_some_iff.1 isSuite).1
      · exact suites_behindSuite _

end

/-! ## Steps of the packages -/

section

variable {state : State mirror.tools Place} {worker : Nat} {fetch : Fetch}

theorem turns_behindFetch
    (result : FetchResult Place)
    (going : state.fetches worker = .failed → result.phase = .failed) :
    Turns state (state.behindFetch worker result) (.fetch worker) where
  others := by
    intro other different
    cases other with
    | suite party => rfl
    | fetch party =>
        rw [replacedBy, replacedBy, fetches_behindFetch_of_ne]
        · rfl
        · rintro rfl
          exact different rfl
  broken := by
    rintro (broken | ⟨party, inside, failed⟩)
    · exact Or.inl broken
    · refine Or.inr ⟨party, inside, ?_⟩
      by_cases same : party = worker
      · rw [same] at failed
        rw [same, fetches_behindFetch]
        exact going failed
      · rw [fetches_behindFetch_of_ne same]
        exact failed
  main := rfl
  fetchList := rfl

theorem replacedByFetch_item
    {phase : FetchPhase} {place : Place}
    (replaced : replacedByFetch mirror (some fetch) phase = some place) :
    place = mirror.place fetch.entry.sha256 := by
  cases phase with
  | item phase =>
      simp only [replacedByFetch] at replaced
      split at replaced
      · exact (Option.some.inj replaced).symm
      · cases replaced
  | _ => cases replaced

theorem filesKept_of_fetchActs
    [DecidableEq Place] {choice : Choice} {result : FetchResult Place}
    (isFetch : state.fetchList[worker]? = some fetch)
    (kept : FilesKept mirror state)
    (acts :
      FetchActs mirror fetch state.files state.debs (state.fetches worker)
        choice result) :
    FilesKept mirror (state.behindFetch worker result) := by
  generalize before : state.fetches worker = phase at acts
  have turns :
      (phase = .failed → result.phase = .failed) →
        Turns state (state.behindFetch worker result) (.fetch worker) := by
    rw [← before]
    exact turns_behindFetch result
  have own :
      ∀ place, replacedBy mirror state (.fetch worker) = some place →
        place = mirror.place fetch.entry.sha256 := by
    intro place replaced
    rw [replacedBy, isFetch] at replaced
    exact replacedByFetch_item replaced
  have idle :
      replacedByFetch mirror (some fetch) phase = none →
        replacedBy mirror state (.fetch worker) = none := by
    rw [replacedBy, isFetch, before]
    exact id
  cases acts with
  | present =>
      exact
        (turns (by nofun)).idle kept (idle rfl) (List.append_nil _)
          fun _ _ => rfl
  | absent =>
      exact
        (turns (by nofun)).idle kept (idle rfl) (List.append_nil _)
          fun _ _ => rfl
  | @work phase next _ value further =>
      rcases further with replacing | ⟨rfl, waiting⟩
      · refine
          (turns (by nofun)).replace kept own ?_ (List.append_nil _)
            fun _ different => Function.update_of_ne different _ _
        have same :
            (state.behindFetch worker
                { phase := .item next
                  files :=
                    Function.update state.files
                      (mirror.place fetch.entry.sha256) value
                  debs := state.debs }).fetchList[worker]? =
              some fetch :=
          isFetch
        rw [replacedBy, same, fetches_behindFetch]
        simp only [replacedByFetch, if_pos replacing]
      · refine
          (turns (by nofun)).idle kept (idle ?_) (List.append_nil _)
            fun place _ => congrFun (Function.update_eq_self _ _) place
        simp [replacedByFetch, waiting]
  | accept ready held right =>
      exact
        (turns (by nofun)).accept kept own held (congrArg _ right) rfl rfl
  | fail unended =>
      refine (turns fun _ => rfl).fail kept (Or.inr ⟨worker, ?_, ?_⟩)
      · exact (List.getElem?_eq_some_iff.1 isFetch).1
      · exact fetches_behindFetch _

end

/-! ## Runs -/

section

variable {state after : State mirror.tools Place}

/-- Nothing is replaced, and no file is written. -/
theorem FilesKept.mono
    (kept : FilesKept mirror state)
    (staged : after.staged = state.staged)
    (files :
      ∀ place, after.files place = state.files place ∨
        after.files place = none)
    (replacing :
      ∀ thread place, replacedBy mirror state thread = some place →
        replacedBy mirror after thread = some place)
    (broken : Broken mirror state → Broken mirror after)
    (unselected : after.main = .collecting → after.fetchList = []) :
    FilesKept mirror after where
  kept := by
    rw [staged]
    refine
      kept.kept.mono (fun _ settled => settled) ?_
        (fun thread place replaced => Or.inl (replacing thread place replaced))
        broken
    intro place settled good
    rcases files place with same | removed
    · rw [same]
      exact good
    · rw [removed]
      nofun
  unselected := unselected

theorem filesKept_of_mainActs
    (kept : FilesKept mirror state) (acts : MainActs mirror state after) :
    FilesKept mirror after := by
  cases acts with
  | read collecting =>
      exact
        kept.mono rfl (fun _ => Or.inl rfl) (fun _ _ replaced => replaced) id
          kept.unselected
  | stop collecting =>
      exact
        kept.mono rfl (fun _ => Or.inl rfl) (fun _ _ replaced => replaced) id
          (by nofun)
  | @selected debs fetchList collecting =>
      have none := kept.unselected collecting
      refine kept.mono rfl (fun _ => Or.inl rfl) ?_ ?_ (by nofun)
      · intro thread place replaced
        cases thread with
        | suite party => exact replaced
        | fetch party =>
            rw [replacedBy, none] at replaced
            cases replaced
      · rintro (broken | ⟨party, inside, failed⟩)
        · exact Or.inl broken
        · rw [none] at inside
          exact absurd inside (Nat.not_lt_zero party)
  | fetched fetching =>
      exact
        kept.mono rfl (fun _ => Or.inl rfl) (fun _ _ replaced => replaced) id
          (by nofun)
  | @round round putting =>
      refine
        kept.mono rfl (fun _ => Or.inl rfl) (fun _ _ replaced => replaced) id
          fun collecting => ?_
      cases round with
      | _ => cases collecting

theorem filesKept_of_stepActs
    [DecidableEq Place] {action : Action}
    (apart : Apart mirror state.staged) (kept : FilesKept mirror state)
    (acts : StepActs mirror state action after) : FilesKept mirror after := by
  cases acts with
  | suite isSuite acts => exact filesKept_of_suiteActs isSuite apart kept acts
  | main acts => exact filesKept_of_mainActs kept acts
  | fetch fetching isFetch acts =>
      exact filesKept_of_fetchActs isFetch kept acts
  | put putting isTask inTurn acts =>
      exact
        kept.mono rfl (fun _ => Or.inl rfl) (fun _ _ replaced => replaced) id
          kept.unselected
  | remove name =>
      refine
        kept.mono rfl (fun place => ?_) (fun _ _ replaced => replaced) id
          kept.unselected
      by_cases same : place = mirror.place name
      · rw [same]
        exact Or.inr (Function.update_self _ _ _)
      · exact Or.inl (Function.update_of_ne same _ _)

theorem filesKept_initial
    (files : Files Place) : FilesKept mirror (initial mirror files) where
  kept := by
    rintro place ⟨content, member, -⟩
    cases member
  unselected _ := rfl

/-- Once no thread is at work, an accepted file holds what it is named by. -/
theorem FilesKept.good
    (kept : FilesKept mirror state)
    (idle : ∀ thread, replacedBy mirror state thread = none)
    (unbroken : ¬ Broken mirror state) {content bytes : Bytes}
    (accepted : content ∈ state.staged)
    (held :
      state.files (mirror.place (mirror.tools.sha256 content)) = some bytes) :
    mirror.place (mirror.tools.sha256 bytes) =
      mirror.place (mirror.tools.sha256 content) := by
  have good :=
    kept.kept.good_of_idle (fun thread place => by rw [idle]; nofun) unbroken
      ⟨content, accepted, rfl⟩
  exact (good bytes held).2

end

end Confos.Apt.MirrorRun
