import Confos.Apt.MirrorFiles

/-!
# Only vouched-for files are uploaded

Trust goes from a signed release to the indexes it lists, from an index to its
stanzas, and from a stanza to a file.  In a run whose main thread reads no
index that another thread is replacing, every package that is uploaded has the
digest of such a stanza, and every index the digest that its release lists.
-/

namespace Confos.Apt.MirrorRun

open Confos.Apt.MirrorSelection
open Confos.Apt.Staging
open Confos.Apt.VouchedCache (mem_of_lookup mem_setItem)
open Confos.Library.ByteStrings
open Confos.Library.Machines (run Meets run_invariant_of_meets)

variable {Place : Type}

section

variable (mirror : Mirror Place)

/-! ## What a file is vouched for by -/

/-- Something with the listed digest of an index has been accepted. -/
def Accepted (staged : List Bytes) (signed : Signed mirror.tools)
    (path : String) : Prop :=
  ∃ want, signed.want? path = some want ∧
    ∃ content ∈ staged, mirror.tools.sha256 content = want.digest

section

variable (state : State mirror.tools Place)

/-- A suite of the run, the release it verified, and an index listed there. -/
structure ListedIndex (suite : Suite) (path : String) (want : Want) :
    Prop where
  wanted : path ∈ suite.wanted
  release :
    ∃ worker signed, mirror.suites[worker]? = some suite ∧
      state.suites worker = .done signed ∧ signed.want? path = some want

/-- A stanza of a listed index of a suite with that mirror URL. -/
def Vouched (ours : String) (entry : Entry) : Prop :=
  ∃ suite path want, ListedIndex mirror state suite path want ∧
    suite.ours = ours ∧ isBinary path = true ∧
      ∃ content index, mirror.tools.sha256 content = want.digest ∧
        mirror.tools.decompress content = some index ∧
          entry ∈ packagesIn index

/-- A file and a digest: the one of the cache has it, and one with it has been
accepted for the other. -/
def IsFile (staged : List Bytes) (digest : String) : Source → Prop
  | .cache content => mirror.tools.sha256 content = digest
  | .work name =>
      name = digest ∧ ∃ content ∈ staged, mirror.tools.sha256 content = digest

/-- What is uploaded in a round. -/
def IsVouchedPut (url : String) (bytes : Bytes) : Round → Prop
  | .debs =>
      ∃ fetch : Fetch, Vouched mirror state fetch.ours fetch.entry ∧
        url = fetch.url ∧ mirror.tools.sha256 bytes = fetch.entry.sha256
  | .indices =>
      ∃ suite path want, ListedIndex mirror state suite path want ∧
        url ∈ indexUrls suite path want.digest ∧
          mirror.tools.sha256 bytes = want.digest
  | .releases => True

/-! ## Orderly runs -/

/-- The index that the main thread reads next. -/
def nextIndexPlace : Option Place :=
  state.toRead.head?.bind fun read =>
    match state.suites read.1 with
    | .done signed =>
        if isBinary read.2 then
          (signed.want? read.2).map fun want => mirror.place want.digest
        else
          none
    | _ => none

/-- The main thread reads no index that a thread is replacing. -/
def Orderly : Action → Prop
  | .main =>
      ∀ place ∈ nextIndexPlace mirror state,
        ∀ worker < mirror.suites.length,
          replacedBySuite mirror (state.suites worker) ≠ some place
  | _ => True

instance decidableOrderly
    [DecidableEq Place] (action : Action) :
    Decidable (Orderly mirror state action) :=
  match action with
  | .main =>
      inferInstanceAs
        (Decidable
          (∀ place ∈ nextIndexPlace mirror state,
            ∀ worker < mirror.suites.length,
              replacedBySuite mirror (state.suites worker) ≠ some place))
  | .suite _ _ | .fetch _ _ | .put _ _ | .remove _ => .isTrue trivial

/-- Different digests name different files. -/
def NamesApart : Prop :=
  ∀ left right,
    mirror.place (mirror.tools.sha256 left) =
        mirror.place (mirror.tools.sha256 right) →
      mirror.tools.sha256 left = mirror.tools.sha256 right

/-! ## The invariant -/

/-- What a suite's thread has accepted so far. -/
def SuiteHolds (staged : List Bytes) (suite : Suite) :
    SuitePhase mirror.tools → Prop
  | .index signed path rest _ =>
      ∃ before, suite.wanted = before ++ path :: rest ∧
        ∀ earlier ∈ before, Accepted mirror staged signed earlier
  | .done signed => ∀ path ∈ suite.wanted, Accepted mirror staged signed path
  | _ => True

/-- Vouched for, unless a thread has raised an exception. -/
def Sound (ours : String) (entry : Entry) : Prop :=
  Vouched mirror state ours entry ∨ Broken mirror state

structure Holds : Prop where
  suites :
    ∀ worker suite, mirror.suites[worker]? = some suite →
      SuiteHolds mirror state.staged suite (state.suites worker)
  outside :
    ∀ worker, mirror.suites[worker]? = none →
      state.suites worker = .fetch .inRelease
  toRead :
    ∀ read ∈ state.toRead, ∃ suite, mirror.suites[read.1]? = some suite ∧
      read.2 ∈ suite.wanted
  sets :
    ∀ found ∈ listed state.sets, Sound mirror state found.ours found.entry
  uploads :
    ∀ task ∈ state.uploads, ∃ suite path want,
      ListedIndex mirror state suite path want ∧
        task ∈ indexTasks suite path want
  fetchList :
    ∀ fetch ∈ state.fetchList, Sound mirror state fetch.ours fetch.entry
  debs :
    ∀ item ∈ state.debs, ∃ fetch : Fetch,
      Sound mirror state fetch.ours fetch.entry ∧ item.1 = fetch.url ∧
        IsFile mirror state.staged fetch.entry.sha256 item.2.1
  collected :
    state.main ≠ .collecting → state.main ≠ .failed →
      ∀ worker < mirror.suites.length, ∃ signed,
        state.suites worker = .done signed
  fetched :
    ∀ round, state.main = .putting round →
      ∀ worker < state.fetchList.length, state.fetches worker = .done
  log :
    ∀ round url bytes, .put round url bytes ∈ state.log →
      IsVouchedPut mirror state url bytes round

end

end

variable {mirror : Mirror Place} {state after : State mirror.tools Place}

/-! ## What steps leave -/

/-- What is done stays done. -/
structure Grows (before after : State mirror.tools Place) : Prop where
  suites :
    ∀ worker signed, before.suites worker = .done signed →
      after.suites worker = .done signed
  staged : ∀ content ∈ before.staged, content ∈ after.staged
  broken : Broken mirror before → Broken mirror after

namespace Grows

variable (grows : Grows state after)

include grows

theorem accepted
    {signed : Signed mirror.tools} {path : String}
    (accepted : Accepted mirror state.staged signed path) :
    Accepted mirror after.staged signed path := by
  rcases accepted with ⟨want, listed, content, member, right⟩
  exact ⟨want, listed, content, grows.staged content member, right⟩

theorem suiteHolds
    {suite : Suite} {phase : SuitePhase mirror.tools}
    (holds : SuiteHolds mirror state.staged suite phase) :
    SuiteHolds mirror after.staged suite phase := by
  cases phase with
  | index signed path rest phase =>
      rcases holds with ⟨before, split, all⟩
      exact ⟨before, split, fun path inside => grows.accepted (all path inside)⟩
  | done signed => exact fun path inside => grows.accepted (holds path inside)
  | _ => trivial

theorem listedIndex
    {suite : Suite} {path : String} {want : Want}
    (index : ListedIndex mirror state suite path want) :
    ListedIndex mirror after suite path want := by
  rcases index.release with ⟨worker, signed, isSuite, isDone, listed⟩
  exact
    ⟨index.wanted, worker, signed, isSuite,
      grows.suites worker signed isDone, listed⟩

theorem vouched
    {ours : String} {entry : Entry}
    (vouched : Vouched mirror state ours entry) :
    Vouched mirror after ours entry := by
  rcases vouched with ⟨suite, path, want, index, rest⟩
  exact ⟨suite, path, want, grows.listedIndex index, rest⟩

theorem sound
    {ours : String} {entry : Entry} (sound : Sound mirror state ours entry) :
    Sound mirror after ours entry :=
  sound.imp grows.vouched grows.broken

theorem isFile
    {digest : String} {source : Source}
    (file : IsFile mirror state.staged digest source) :
    IsFile mirror after.staged digest source := by
  cases source with
  | cache content => exact file
  | work name =>
      rcases file with ⟨same, content, member, right⟩
      exact ⟨same, content, grows.staged content member, right⟩

theorem isVouchedPut
    {url : String} {bytes : Bytes} {round : Round}
    (put : IsVouchedPut mirror state url bytes round) :
    IsVouchedPut mirror after url bytes round := by
  cases round with
  | debs =>
      rcases put with ⟨fetch, vouched, rest⟩
      exact ⟨fetch, grows.vouched vouched, rest⟩
  | indices =>
      rcases put with ⟨suite, path, want, index, rest⟩
      exact ⟨suite, path, want, grows.listedIndex index, rest⟩
  | releases => trivial

end Grows

theorem grows_of_stepActs
    [DecidableEq Place] {action : Action} (kept : FilesKept mirror state)
    (acts : StepActs mirror state action after) : Grows state after := by
  refine
    ⟨fun _ _ isDone => done_of_stepActs acts isDone, staged_of_stepActs acts,
      ?_⟩
  cases acts with
  | @suite worker _ _ result isSuite acts =>
      refine (turns_behindSuite result ?_).broken
      intro failed
      rw [failed] at acts
      cases acts with
      | release early => cases early
      | stage _ _ early => cases early
  | main acts =>
      cases acts with
      | selected collecting =>
          rintro (broken | ⟨worker, inside, failed⟩)
          · exact Or.inl broken
          · rw [kept.unselected collecting] at inside
            exact absurd inside (Nat.not_lt_zero worker)
      | _ => exact id
  | @fetch worker _ _ result fetching isFetch acts =>
      refine (turns_behindFetch result ?_).broken
      intro failed
      rw [failed] at acts
      cases acts with
      | fail => rfl
  | _ => exact id

/-! ## The invariant is kept -/

theorem suiteHolds_nextIndex
    {staged : List Bytes} {suite : Suite} {signed : Signed mirror.tools}
    {before rest : List String} (split : suite.wanted = before ++ rest)
    (all : ∀ path ∈ before, Accepted mirror staged signed path) :
    SuiteHolds mirror staged suite (nextIndex signed rest) := by
  cases rest with
  | nil =>
      rw [List.append_nil] at split
      rw [nextIndex, SuiteHolds, split]
      exact all
  | cons path rest => exact ⟨before, split, all⟩

theorem suiteHolds_of_suiteActs
    [DecidableEq Place] {suite : Suite} {worker : Nat} {choice : Choice}
    {result : SuiteResult Place mirror.tools} {phase : SuitePhase mirror.tools}
    (holds : SuiteHolds mirror state.staged suite phase)
    (grows : Grows state (state.behindSuite worker result))
    (acts : SuiteActs mirror suite state.files phase choice result) :
    SuiteHolds mirror (state.behindSuite worker result).staged suite
      result.phase := by
  have early :
      ∀ staged {phase : SuitePhase mirror.tools}, phase.isEarly = true →
        SuiteHolds mirror staged suite phase := by
    intro staged phase early
    cases phase with
    | index => cases early
    | done => cases early
    | _ => trivial
  cases acts with
  | release _ further =>
      rcases further with isEarly | rfl
      · exact early _ isEarly
      · trivial
  | stage _ _ _ isEarly => exact early _ isEarly
  | start =>
      exact
        suiteHolds_nextIndex (List.nil_append _).symm
          (List.forall_mem_nil _)
  | work =>
      rcases grows.suiteHolds holds with ⟨before, split, all⟩
      exact ⟨before, split, all⟩
  | @accept signed path rest _ want content listed _ _ right =>
      rcases grows.suiteHolds holds with ⟨before, split, all⟩
      refine
        suiteHolds_nextIndex
          (split.trans (List.append_cons before path rest)) ?_
      intro other member
      rcases List.mem_append.1 member with earlier | now
      · exact all other earlier
      · rw [List.mem_singleton.1 now]
        exact
          ⟨want, listed, content,
            List.mem_append_right _ (List.mem_singleton_self _), right⟩
  | fail => trivial

namespace Holds

variable (holds : Holds mirror state)

include holds

theorem suiteHolds
    (grows : Grows state after) (same : after.suites = state.suites)
    (worker : Nat) (suite : Suite)
    (isSuite : mirror.suites[worker]? = some suite) :
    SuiteHolds mirror after.staged suite (after.suites worker) := by
  rw [same]
  exact grows.suiteHolds (holds.suites worker suite isSuite)

theorem debsSound
    (grows : Grows state after) {item : String × (Source × Entry)}
    (member : item ∈ state.debs) :
    ∃ fetch : Fetch, Sound mirror after fetch.ours fetch.entry ∧
      item.1 = fetch.url ∧
        IsFile mirror after.staged fetch.entry.sha256 item.2.1 := by
  rcases holds.debs item member with ⟨fetch, sound, url, file⟩
  exact ⟨fetch, grows.sound sound, url, grows.isFile file⟩

theorem uploadsListed
    (grows : Grows state after) {task : Task} (member : task ∈ state.uploads) :
    ∃ suite path want, ListedIndex mirror after suite path want ∧
      task ∈ indexTasks suite path want := by
  rcases holds.uploads task member with ⟨suite, path, want, index, isTask⟩
  exact ⟨suite, path, want, grows.listedIndex index, isTask⟩

theorem allDone
    (grows : Grows state after)
    (collected : state.main ≠ .collecting) (going : state.main ≠ .failed) :
    ∀ worker < mirror.suites.length, ∃ signed,
      after.suites worker = .done signed := by
  intro worker inside
  rcases holds.collected collected going worker inside with ⟨signed, isDone⟩
  exact ⟨signed, grows.suites worker signed isDone⟩

theorem behindSuite
    [DecidableEq Place] {worker : Nat} {choice : Choice} {suite : Suite}
    {result : SuiteResult Place mirror.tools}
    (grows : Grows state (state.behindSuite worker result))
    (isSuite : mirror.suites[worker]? = some suite)
    (acts :
      SuiteActs mirror suite state.files (state.suites worker) choice
        result) :
    Holds mirror (state.behindSuite worker result) where
  suites := by
    intro other found isFound
    by_cases same : other = worker
    · subst same
      rw [isSuite] at isFound
      cases isFound
      rw [suites_behindSuite]
      exact
        suiteHolds_of_suiteActs (holds.suites other suite isSuite) grows acts
    · rw [suites_behindSuite_of_ne same]
      exact grows.suiteHolds (holds.suites other found isFound)
  outside := by
    intro other absent
    rw [suites_behindSuite_of_ne]
    · exact holds.outside other absent
    · rintro rfl
      rw [isSuite] at absent
      cases absent
  toRead := holds.toRead
  sets := fun found member => grows.sound (holds.sets found member)
  uploads := fun _ member => holds.uploadsListed grows member
  fetchList := fun fetch member => grows.sound (holds.fetchList fetch member)
  debs := fun _ member => holds.debsSound grows member
  collected := fun collected going => holds.allDone grows collected going
  fetched := holds.fetched
  log := fun round url bytes member =>
    grows.isVouchedPut (holds.log round url bytes member)

theorem behindFetch
    [DecidableEq Place] {worker : Nat} {choice : Choice} {fetch : Fetch}
    {result : FetchResult Place}
    (grows : Grows state (state.behindFetch worker result))
    (fetching : state.main = .fetching)
    (isFetch : state.fetchList[worker]? = some fetch)
    (acts :
      FetchActs mirror fetch state.files state.debs (state.fetches worker)
        choice result) :
    Holds mirror (state.behindFetch worker result) where
  suites := holds.suiteHolds grows rfl
  outside := holds.outside
  toRead := holds.toRead
  sets := fun found member => grows.sound (holds.sets found member)
  uploads := fun _ member => holds.uploadsListed grows member
  fetchList := fun fetch member => grows.sound (holds.fetchList fetch member)
  debs := by
    intro item member
    generalize state.fetches worker = phase at acts
    cases acts with
    | @accept phase content ready held right =>
        rcases mem_setItem member with rfl | earlier
        · refine
            ⟨fetch, grows.sound (holds.fetchList fetch ?_), rfl, rfl, content,
              ?_, right⟩
          · exact List.mem_of_getElem? isFetch
          · exact List.mem_append_right _ (List.mem_singleton_self _)
        · exact holds.debsSound grows earlier
    | _ => exact holds.debsSound grows member
  collected := fun collected going => holds.allDone grows collected going
  fetched := by
    intro round putting
    change state.main = .putting round at putting
    rw [fetching] at putting
    cases putting
  log := by
    intro round url bytes member
    rcases List.mem_append.1 member with earlier | now
    · exact grows.isVouchedPut (holds.log round url bytes earlier)
    · generalize state.fetches worker = phase at acts
      cases acts with
      | present => cases List.mem_singleton.1 now
      | _ => cases now

/-! ## The uploads -/

theorem idle
    (collected : state.main ≠ .collecting) (going : state.main ≠ .failed)
    (fetched :
      ∀ worker < state.fetchList.length, state.fetches worker = .done) :
    (∀ thread, replacedBy mirror state thread = none) ∧
      ¬ Broken mirror state := by
  have done := holds.collected collected going
  constructor
  · intro thread
    cases thread with
    | suite worker =>
        rw [replacedBy]
        by_cases inside : worker < mirror.suites.length
        · rcases done worker inside with ⟨signed, isDone⟩
          rw [isDone]
          rfl
        · rw [holds.outside worker (List.getElem?_eq_none (not_lt.1 inside))]
          rfl
    | fetch worker =>
        rw [replacedBy]
        by_cases inside : worker < state.fetchList.length
        · rw [fetched worker inside]
          cases state.fetchList[worker]? with
          | none => rfl
          | some fetch => rfl
        · rw [List.getElem?_eq_none (not_lt.1 inside)]
          rfl
  · rintro (⟨worker, inside, failed⟩ | ⟨worker, inside, failed⟩)
    · rcases done worker inside with ⟨signed, isDone⟩
      rw [isDone] at failed
      cases failed
    · rw [fetched worker inside] at failed
      cases failed

theorem isVouchedPut
    (kept : FilesKept mirror state) (names : NamesApart mirror)
    {round : Round} {task : Task} {bytes : Bytes}
    (putting : state.main = .putting round)
    (isTask : task ∈ tasksOf mirror state round)
    (held : body mirror state.files task.source = some bytes) :
    IsVouchedPut mirror state task.url bytes round := by
  have collected : state.main ≠ .collecting := by
    rw [putting]
    nofun
  have going : state.main ≠ .failed := by
    rw [putting]
    nofun
  rcases holds.idle collected going (holds.fetched round putting) with
    ⟨idle, unbroken⟩
  have right :
      ∀ content ∈ state.staged,
        state.files (mirror.place (mirror.tools.sha256 content)) =
            some bytes →
          mirror.tools.sha256 bytes = mirror.tools.sha256 content :=
    fun content accepted held =>
      names bytes content (kept.good idle unbroken accepted held)
  cases round with
  | debs =>
      rcases List.mem_map.1 isTask with ⟨item, member, rfl⟩
      rcases holds.debs item member with ⟨fetch, sound, url, file⟩
      refine ⟨fetch, sound.resolve_right unbroken, url, ?_⟩
      change body mirror state.files item.2.1 = some bytes at held
      cases source : item.2.1 with
      | cache content =>
          rw [source] at file held
          cases held
          exact file
      | work name =>
          rw [source] at file held
          rcases file with ⟨rfl, content, accepted, same⟩
          rw [← same] at held ⊢
          exact right content accepted held
  | indices =>
      rcases holds.uploads task isTask with
        ⟨suite, path, want, index, listed⟩
      rcases List.mem_map.1 listed with ⟨url, isUrl, rfl⟩
      refine ⟨suite, path, want, index, isUrl, ?_⟩
      rcases index.release with ⟨worker, signed, isSuite, isDone, lists⟩
      have suiteHolds := holds.suites worker suite isSuite
      rw [isDone] at suiteHolds
      rcases suiteHolds path index.wanted with
        ⟨found, isFound, content, accepted, same⟩
      rw [lists] at isFound
      cases isFound
      change state.files (mirror.place want.digest) = some bytes at held
      rw [← same] at held ⊢
      exact right content accepted held
  | releases => trivial

theorem behindPut
    (grows : Grows state after) (kept : FilesKept mirror state)
    (names : NamesApart mirror) {worker : Nat} {round : Round} {task : Task}
    {phase : PutPhase} {events : List Event}
    (same : after = state.behindPut worker phase events)
    (putting : state.main = .putting round)
    (isTask : (tasksOf mirror state round)[worker]? = some task)
    (acts :
      PutActs mirror round task state.files (state.puts worker) phase
        events) :
    Holds mirror after := by
  subst same
  refine
    { suites := holds.suiteHolds grows rfl
      outside := holds.outside
      toRead := holds.toRead
      sets := fun found member => grows.sound (holds.sets found member)
      uploads := fun _ member => holds.uploadsListed grows member
      fetchList := fun fetch member =>
        grows.sound (holds.fetchList fetch member)
      debs := fun _ member => holds.debsSound grows member
      collected := fun collected going => holds.allDone grows collected going
      fetched := holds.fetched
      log := ?_ }
  intro of url bytes member
  refine grows.isVouchedPut ?_
  rcases List.mem_append.1 member with earlier | now
  · exact holds.log of url bytes earlier
  · generalize state.puts worker = before at acts
    cases acts with
    | send wet held =>
        cases List.mem_singleton.1 now
        exact
          holds.isVouchedPut kept names putting (List.mem_of_getElem? isTask)
            held
    | present => cases List.mem_singleton.1 now
    | _ => cases now

/-! ## The main thread -/

/-- What the main thread reads of an accepted index is what is listed. -/
theorem right_of_read
    (kept : FilesKept mirror state) (names : NamesApart mirror)
    (orderly : Orderly mirror state .main) {worker : Nat} {path : String}
    {rest : List (Nat × String)} {suite : Suite}
    {signed : Signed mirror.tools} {want : Want} {content : Bytes}
    (collecting : state.main = .collecting)
    (reads : state.toRead = (worker, path) :: rest)
    (isSuite : mirror.suites[worker]? = some suite)
    (isDone : state.suites worker = .done signed)
    (listed : signed.want? path = some want) (binary : isBinary path = true)
    (held : state.files (mirror.place want.digest) = some content) :
    mirror.tools.sha256 content = want.digest ∨ Broken mirror state := by
  have wanted : path ∈ suite.wanted := by
    rcases holds.toRead (worker, path) (by rw [reads]; simp) with
      ⟨found, isFound, wanted⟩
    rw [isSuite] at isFound
    cases isFound
    exact wanted
  have suiteHolds := holds.suites worker suite isSuite
  rw [isDone] at suiteHolds
  rcases suiteHolds path wanted with ⟨found, isFound, first, accepted, same⟩
  rw [listed] at isFound
  cases isFound
  have place : nextIndexPlace mirror state =
      some (mirror.place want.digest) := by
    simp [nextIndexPlace, reads, isDone, binary, listed]
  rcases kept.kept (mirror.place want.digest)
      ⟨first, accepted, congrArg _ same⟩ with
    good | ⟨thread, replaced⟩ | broken
  · rw [← same] at held good ⊢
    exact Or.inl (names content first (good content held).2)
  · exfalso
    cases thread with
    | suite other =>
        by_cases inside : other < mirror.suites.length
        · exact orderly _ place other inside replaced
        · rw [replacedBy,
            holds.outside other (List.getElem?_eq_none (not_lt.1 inside))]
            at replaced
          cases replaced
    | fetch other =>
        rw [replacedBy, kept.unselected collecting] at replaced
        cases replaced
  · exact Or.inr broken

theorem behindRead
    (grows : Grows state after) {worker : Nat} {path : String}
    {rest : List (Nat × String)} {suite : Suite}
    {signed : Signed mirror.tools} {want : Want} {sets : Sets}
    (kept : FilesKept mirror state) (names : NamesApart mirror)
    (orderly : Orderly mirror state .main)
    (same :
      after =
        { state with
          toRead := rest
          uploads := state.uploads ++ indexTasks suite path want
          sets })
    (collecting : state.main = .collecting)
    (reads : state.toRead = (worker, path) :: rest)
    (isSuite : mirror.suites[worker]? = some suite)
    (isDone : state.suites worker = .done signed)
    (listed : signed.want? path = some want)
    (collects :
      Collects mirror suite path
        (state.files (mirror.place want.digest)) state.sets sets) :
    Holds mirror after := by
  subst same
  have wanted : path ∈ suite.wanted := by
    rcases holds.toRead (worker, path) (by rw [reads]; simp) with
      ⟨found, isFound, wanted⟩
    rw [isSuite] at isFound
    cases isFound
    exact wanted
  have index : ListedIndex mirror state suite path want :=
    ⟨wanted, worker, signed, isSuite, isDone, listed⟩
  refine
    { suites := holds.suiteHolds grows rfl
      outside := holds.outside
      toRead := fun read member =>
        holds.toRead read (by rw [reads]; exact List.mem_cons_of_mem _ member)
      sets := ?_
      uploads := ?_
      fetchList := fun fetch member =>
        grows.sound (holds.fetchList fetch member)
      debs := fun _ member => holds.debsSound grows member
      collected := fun collected going => absurd collecting collected
      fetched := holds.fetched
      log := fun of url bytes member =>
        grows.isVouchedPut (holds.log of url bytes member) }
  · intro found member
    refine grows.sound ?_
    rcases collects with
      ⟨-, rfl⟩ | ⟨content, text, held, decompressed, binary, rfl⟩
    · exact holds.sets found member
    · rcases mem_listed_foldl member with
        ⟨upstream, earlier⟩ | ⟨ours, inside⟩
      · exact holds.sets { found with upstream } earlier
      · refine
          (holds.right_of_read kept names orderly collecting reads isSuite
            isDone listed binary held).imp_left fun right => ?_
        exact
          ⟨suite, path, want, index, ours, binary, content, text, right,
            decompressed, inside⟩
  · intro task member
    rcases List.mem_append.1 member with earlier | now
    · exact holds.uploadsListed grows earlier
    · exact ⟨suite, path, want, grows.listedIndex index, now⟩

theorem behindMain
    (grows : Grows state after) (kept : FilesKept mirror state)
    (names : NamesApart mirror) (orderly : Orderly mirror state .main)
    (acts : MainActs mirror state after) : Holds mirror after := by
  cases acts with
  | read collecting reads isSuite isDone listed collects =>
      exact
        holds.behindRead grows kept names orderly rfl collecting reads isSuite
          isDone listed collects
  | stop collecting =>
      exact
        { suites := holds.suiteHolds grows rfl
          outside := holds.outside
          toRead := holds.toRead
          sets := fun found member => grows.sound (holds.sets found member)
          uploads := fun _ member => holds.uploadsListed grows member
          fetchList := fun fetch member =>
            grows.sound (holds.fetchList fetch member)
          debs := fun _ member => holds.debsSound grows member
          collected := fun _ going => absurd rfl going
          fetched := by nofun
          log := fun round url bytes member =>
            grows.isVouchedPut (holds.log round url bytes member) }
  | @selected debs fetchList collecting reads done found =>
      rcases select_sound found with ⟨debsFrom, fetchesFrom⟩
      exact
        { suites := holds.suiteHolds grows rfl
          outside := holds.outside
          toRead := holds.toRead
          sets := fun found member => grows.sound (holds.sets found member)
          uploads := fun _ member => holds.uploadsListed grows member
          fetchList := fun fetch member =>
            grows.sound (holds.sets fetch (fetchesFrom fetch member))
          debs := by
            intro item member
            have isCached := debsFrom item member
            rcases isCached.known with ⟨fetch, inSets, isEntry, isUrl⟩
            rcases isCached.cached with ⟨content, isCache, right⟩
            refine
              ⟨fetch, grows.sound (holds.sets fetch inSets), isUrl.symm, ?_⟩
            rw [isCache, isEntry]
            exact right
          collected := fun _ _ => suitesDone_iff.1 done
          fetched := by nofun
          log := fun round url bytes member =>
            grows.isVouchedPut (holds.log round url bytes member) }
  | fetched fetching done =>
      exact
        { suites := holds.suiteHolds grows rfl
          outside := holds.outside
          toRead := holds.toRead
          sets := fun found member => grows.sound (holds.sets found member)
          uploads := fun _ member => holds.uploadsListed grows member
          fetchList := fun fetch member =>
            grows.sound (holds.fetchList fetch member)
          debs := fun _ member => holds.debsSound grows member
          collected := fun _ _ =>
            holds.allDone grows (by rw [fetching]; nofun)
              (by rw [fetching]; nofun)
          fetched := fun _ _ => fetchesDone_iff.1 done
          log := fun round url bytes member =>
            grows.isVouchedPut (holds.log round url bytes member) }
  | round putting done =>
      exact
        { suites := holds.suiteHolds grows rfl
          outside := holds.outside
          toRead := holds.toRead
          sets := fun found member => grows.sound (holds.sets found member)
          uploads := fun _ member => holds.uploadsListed grows member
          fetchList := fun fetch member =>
            grows.sound (holds.fetchList fetch member)
          debs := fun _ member => holds.debsSound grows member
          collected := fun _ _ =>
            holds.allDone grows (by rw [putting]; nofun)
              (by rw [putting]; nofun)
          fetched := fun _ _ => holds.fetched _ putting
          log := fun round url bytes member =>
            grows.isVouchedPut (holds.log round url bytes member) }

end Holds

/-! ## Runs -/

theorem holds_of_stepActs
    [DecidableEq Place] {action : Action} (names : NamesApart mirror)
    (orderly : Orderly mirror state action) (kept : FilesKept mirror state)
    (holds : Holds mirror state)
    (acts : StepActs mirror state action after) : Holds mirror after := by
  have grows := grows_of_stepActs kept acts
  cases acts with
  | suite isSuite acts => exact holds.behindSuite grows isSuite acts
  | main acts => exact holds.behindMain grows kept names orderly acts
  | fetch fetching isFetch acts =>
      exact holds.behindFetch grows fetching isFetch acts
  | put putting isTask inTurn acts =>
      exact holds.behindPut grows kept names rfl putting isTask acts
  | remove name =>
      exact
        { suites := holds.suiteHolds grows rfl
          outside := holds.outside
          toRead := holds.toRead
          sets := fun found member => grows.sound (holds.sets found member)
          uploads := fun _ member => holds.uploadsListed grows member
          fetchList := fun fetch member =>
            grows.sound (holds.fetchList fetch member)
          debs := fun _ member => holds.debsSound grows member
          collected := fun collected going =>
            holds.allDone grows collected going
          fetched := holds.fetched
          log := fun round url bytes member =>
            grows.isVouchedPut (holds.log round url bytes member) }

theorem holds_initial
    (files : Files Place) : Holds mirror (initial mirror files) where
  suites := fun _ _ _ => trivial
  outside := fun _ _ => rfl
  toRead := by
    intro read member
    rcases List.mem_flatMap.1 member with ⟨⟨suite, worker⟩, inSuites, inPaths⟩
    rcases List.mem_map.1 inPaths with ⟨path, wanted, rfl⟩
    exact ⟨suite, List.mem_zipIdx_iff_getElem?.1 inSuites, wanted⟩
  sets := by nofun
  uploads := by nofun
  fetchList := by nofun
  debs := by nofun
  collected := fun collected => absurd rfl collected
  fetched := by nofun
  log := by nofun

/-- A package that is uploaded is vouched for by a stanza of a listed index,
and an index that is uploaded is the one that is listed. -/
theorem isVouchedPut_of_orderly
    [DecidableEq Place] (names : NamesApart mirror) {files : Files Place} {actions : List Action}
    {finish : State mirror.tools Place}
    (orderly :
      Meets (step mirror) (Orderly mirror) (initial mirror files) actions)
    (ran : run (step mirror) (initial mirror files) actions = some finish)
    (apart : Apart mirror finish.staged) :
    ∀ round url bytes, .put round url bytes ∈ finish.log →
      IsVouchedPut mirror finish url bytes round := by
  have kept :=
    run_invariant_of_meets
      (fun state =>
        Apart mirror state.staged →
          FilesKept mirror state ∧ Holds mirror state)
      (fun _ => ⟨filesKept_initial files, holds_initial files⟩)
      (fun before action after invariant allowed stepped apart => by
        have acts := stepActs_of_step stepped
        have apartBefore : Apart mirror before.staged :=
          fun content member =>
            apart content (staged_of_stepActs acts content member)
        rcases invariant apartBefore with ⟨kept, holds⟩
        exact
          ⟨filesKept_of_stepActs apartBefore kept acts,
            holds_of_stepActs names allowed kept holds acts⟩)
      orderly ran
  exact (kept apart).2.log

/-- What the run of the small mirror has accepted. -/
theorem plainMirror_staged :
    (run (step plainMirror) (initial plainMirror fun _ => none)
        plainActions).map (·.staged) =
      some [utf8Bytes "x", utf8Bytes "y"] := by
  decide +kernel

theorem isVouchedPut_of_orderly_plain :
    ∃ finish,
      run (step plainMirror) (initial plainMirror fun _ => none)
          plainActions =
        some finish ∧
      ∀ round url bytes, .put round url bytes ∈ finish.log →
        IsVouchedPut plainMirror finish url bytes round := by
  rcases Option.map_eq_some_iff.1 plainMirror_staged with
    ⟨finish, ran, staged⟩
  have apart : Apart plainMirror finish.staged := by
    intro content member suite isSuite file
    cases List.mem_singleton.1 isSuite
    rw [staged] at member
    cases file with
    | _ =>
        revert member content
        decide +kernel
  exact
    ⟨finish, ran,
      isVouchedPut_of_orderly (fun _ _ same => same) (by decide +kernel) ran
        apart⟩

/-! ## A race -/

/-- Two suites that list the same index. -/
def sharedMirror : Mirror String :=
  { plainMirror with
    suites :=
      [plainSuite, { plainSuite with ours := "q", upstream := "v" }] }

/-- The second suite has found the index missing, and opens it again behind
the first one; the main thread reads what a server has answered there, before
the connection is lost and the index is fetched once more. -/
def raceActions : List Action :=
  releaseActions (.suite 0) ++ releaseActions (.suite 1) ++
    [.suite 1 .go] ++ stageActions (.suite 0) (utf8Bytes "x") ++
    [.suite 1 (.answer (utf8Bytes "z")), .suite 1 (.block 0), .main,
      .suite 1 .retry, .suite 1 (.answer (utf8Bytes "x")),
      .suite 1 (.block 0), .suite 1 .go, .suite 1 .go, .suite 1 .go, .main,
      .main, .fetch 0 .go] ++
    stageActions (.fetch 0) (utf8Bytes "e") ++ [.fetch 1 .go] ++
    stageActions (.fetch 1) (utf8Bytes "y") ++ [.main, .put 0 .go]

/-- What the suites have verified, by the entries of their releases. -/
def verified {tools : Tools} {Place : Type} (state : State tools Place)
    (worker : Nat) : Hashes :=
  match state.suites worker with
  | .done signed => signed.hashes
  | _ => []

theorem raceActions_run :
    (run (step sharedMirror) (initial sharedMirror fun _ => none)
        raceActions).map
        (fun state => (state.log, [0, 1].map (verified state))) =
      some
        ([.put .debs "o/p.deb" (utf8Bytes "e")],
          [[("c/binary-a/Packages.xz", ("x", 1))],
            [("c/binary-a/Packages.xz", ("x", 1))]]) := by
  decide +kernel

/-- So the main thread has to be kept from reading what is being replaced. -/
theorem not_isVouchedPut_of_race :
    ∃ finish,
      run (step sharedMirror) (initial sharedMirror fun _ => none)
          raceActions =
        some finish ∧
      ∃ url bytes, .put .debs url bytes ∈ finish.log ∧
        ¬ IsVouchedPut sharedMirror finish url bytes .debs := by
  rcases Option.map_eq_some_iff.1 raceActions_run with ⟨finish, ran, same⟩
  rcases Prod.mk.inj same with ⟨log, hashes⟩
  rcases List.cons.inj hashes with ⟨first, rest⟩
  have second := (List.cons.inj rest).1
  refine ⟨finish, ran, "o/p.deb", utf8Bytes "e", ?_, ?_⟩
  · rw [log]
    exact List.mem_singleton_self _
  rintro
    ⟨fetch, ⟨suite, path, want, index, -, -, content, text, right,
      decompressed, inside⟩, -, digest⟩
  rcases index.release with ⟨worker, signed, isSuite, isDone, listed⟩
  have hashes : signed.hashes = [("c/binary-a/Packages.xz", ("x", 1))] := by
    match worker, isSuite with
    | 0, _ =>
        rw [verified, isDone] at first
        exact first
    | 1, _ =>
        rw [verified, isDone] at second
        exact second
  rcases Option.map_eq_some_iff.1 listed with ⟨entry, found, rfl⟩
  rw [hashes] at found
  have isX : entry = ("x", 1) := by
    have := mem_of_lookup found
    cases List.mem_singleton.1 this
    rfl
  subst isX
  have isY : ∀ entry ∈ packagesIn (plainIndex "y"), entry.sha256 = "y" := by
    decide +kernel
  simp only [sharedMirror, plainMirror, plainTools] at decompressed
  split at decompressed
  · cases decompressed
    have same := isY _ inside
    rw [same] at digest
    revert digest
    decide +kernel
  · split at decompressed
    · next packed =>
        rw [packed] at right
        revert right
        decide +kernel
    · cases decompressed

end Confos.Apt.MirrorRun
