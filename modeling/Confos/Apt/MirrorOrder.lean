import Confos.Apt.MirrorSteps
import Confos.Library.Machines

/-!
# Release files last

A suite becomes visible with its release files.  Whatever the order of the
threads' steps, whatever the servers answer, and wherever the run ends, none is
uploaded before every package and every index is in place.
-/

namespace Confos.Apt.MirrorRun

open Confos.Apt.MirrorSelection
open Confos.Apt.Staging
open Confos.Apt.VerifyCache (setItem)
open Confos.Library.ByteStrings
open Confos.Library.Machines (run run_invariant)

variable {Place : Type}

/-- A file has been uploaded, or found where it goes to. -/
def InPlace (log : List Event) (url : String) : Prop :=
  (∃ round bytes, .put round url bytes ∈ log) ∨ .present url ∈ log

section

variable (mirror : Mirror Place)

/-- A run that uploads nothing says only what it would upload. -/
def Handled (log : List Event) (url : String) : Prop :=
  mirror.dryRun = true ∨ InPlace log url

variable (state : State mirror.tools Place)

/-- A suite is done, and the uploads of an index are those of a list. -/
def IsCollected (worker : Nat) (suite : Suite) (path : String)
    (uploads : List Task) : Prop :=
  ∃ signed want, state.suites worker = .done signed ∧
    signed.want? path = some want ∧
      ∀ task ∈ indexTasks suite path want, task ∈ uploads

/-- Every index of every suite and every selected package is in place. -/
structure AllInPlace (log : List Event) : Prop where
  indices :
    ∀ worker suite, mirror.suites[worker]? = some suite →
      ∀ path ∈ suite.wanted, ∃ signed want,
        state.suites worker = .done signed ∧
          signed.want? path = some want ∧
            ∀ url ∈ indexUrls suite path want.digest, InPlace log url
  cached : ∀ item ∈ state.debs, InPlace log item.1
  fetched : ∀ fetch ∈ state.fetchList, InPlace log fetch.url

def Round.number : Round → Nat
  | .debs => 0
  | .indices => 1
  | .releases => 2

/-- The packages and the indexes are fixed. -/
def IsLast : MainPhase → Prop
  | .putting .releases | .finished => True
  | _ => False

structure Ordered : Prop where
  collected :
    ∀ worker suite, mirror.suites[worker]? = some suite →
      ∀ path ∈ suite.wanted,
        (worker, path) ∈ state.toRead ∨
          IsCollected mirror state worker suite path state.uploads
  drained :
    state.main ≠ .collecting → state.main ≠ .failed → state.toRead = []
  fetched :
    ∀ worker fetch, state.fetchList[worker]? = some fetch →
      state.fetches worker = .done →
        .present fetch.url ∈ state.log ∨
          fetch.url ∈ state.debs.map (·.1)
  allFetched :
    ∀ round, state.main = .putting round →
      ∀ worker < state.fetchList.length, state.fetches worker = .done
  sent :
    ∀ round, state.main = .putting round →
      ∀ worker task, (tasksOf mirror state round)[worker]? = some task →
        state.puts worker = .sending ∨ state.puts worker = .done →
          Handled mirror state.log task.url
  earlier :
    ∀ round, state.main = .putting round →
      ∀ former, former.number < round.number →
        ∀ task ∈ tasksOf mirror state former,
          Handled mirror state.log task.url
  wet :
    mirror.dryRun = true →
      (∀ worker, state.puts worker ≠ .sending) ∧
        ∀ round url bytes, .put round url bytes ∉ state.log
  last :
    ∀ url bytes, .put .releases url bytes ∈ state.log → IsLast state.main
  released :
    ∀ before url bytes after,
      state.log = before ++ .put .releases url bytes :: after →
        AllInPlace mirror state before

end

variable {mirror : Mirror Place} {state after : State mirror.tools Place}

theorem InPlace.append
    {log : List Event} {url : String} (up : InPlace log url)
    (events : List Event) : InPlace (log ++ events) url := by
  rcases up with ⟨round, bytes, member⟩ | member
  · exact Or.inl ⟨round, bytes, List.mem_append_left _ member⟩
  · exact Or.inr (List.mem_append_left _ member)

theorem Handled.append
    {log : List Event} {url : String} (handled : Handled mirror log url)
    (events : List Event) : Handled mirror (log ++ events) url :=
  handled.imp_right fun up => up.append events

theorem IsCollected.mono
    {worker : Nat} {suite : Suite} {path : String} {uploads more : List Task}
    (collected : IsCollected mirror state worker suite path uploads)
    (done :
      ∀ worker signed, state.suites worker = .done signed →
        after.suites worker = .done signed)
    (grows : ∀ task ∈ uploads, task ∈ more) :
    IsCollected mirror after worker suite path more := by
  rcases collected with ⟨signed, want, isDone, listed, all⟩
  exact
    ⟨signed, want, done worker signed isDone, listed,
      fun task member => grows task (all task member)⟩

theorem AllInPlace.mono
    {log : List Event} (all : AllInPlace mirror state log)
    (done :
      ∀ worker signed, state.suites worker = .done signed →
        after.suites worker = .done signed)
    (debs : after.debs = state.debs)
    (fetchList : after.fetchList = state.fetchList) :
    AllInPlace mirror after log where
  indices := by
    intro worker suite isSuite path wanted
    rcases all.indices worker suite isSuite path wanted with
      ⟨signed, want, isDone, rest⟩
    exact ⟨signed, want, done worker signed isDone, rest⟩
  cached := by
    rw [debs]
    exact all.cached
  fetched := by
    rw [fetchList]
    exact all.fetched

namespace Ordered

variable (ordered : Ordered mirror state)

include ordered

/-- Before the release files, everything else is in place. -/
theorem allInPlace
    (wet : mirror.dryRun = false) (putting : state.main = .putting .releases) :
    AllInPlace mirror state state.log := by
  have handled :
      ∀ former, former.number < 2 → ∀ task ∈ tasksOf mirror state former,
        InPlace state.log task.url := by
    intro former lower task member
    rcases ordered.earlier .releases putting former lower task member with
      isDry | up
    · rw [wet] at isDry
      cases isDry
    · exact up
  have cached : ∀ item ∈ state.debs, InPlace state.log item.1 :=
    fun item member =>
      handled .debs (by decide) _ (List.mem_map.2 ⟨item, member, rfl⟩)
  refine ⟨?_, cached, ?_⟩
  · intro worker suite isSuite path wanted
    have drained : state.toRead = [] :=
      ordered.drained (by rw [putting]; nofun) (by rw [putting]; nofun)
    rcases ordered.collected worker suite isSuite path wanted with
      unread | ⟨signed, want, isDone, listed, uploads⟩
    · rw [drained] at unread
      cases unread
    · refine ⟨signed, want, isDone, listed, fun url member => ?_⟩
      exact
        handled .indices (by decide) _
          (uploads _ (List.mem_map.2 ⟨url, member, rfl⟩))
  · intro fetch member
    rcases List.getElem?_of_mem member with ⟨worker, isFetch⟩
    have inside := (List.getElem?_eq_some_iff.1 isFetch).1
    rcases ordered.fetched worker fetch isFetch
        (ordered.allFetched .releases putting worker inside) with
      present | known
    · exact Or.inr present
    · rcases List.mem_map.1 known with ⟨item, inDebs, same⟩
      rw [← same]
      exact cached item inDebs

/-- Behind a step that does not send anything. -/
theorem released_append
    {events : List Event}
    (unsent : ∀ url bytes, .put .releases url bytes ∉ events)
    (keeps :
      IsLast state.main → ∀ log, AllInPlace mirror state log →
        AllInPlace mirror after log)
    {before : List Event} {url : String} {bytes : Bytes} {behind : List Event}
    (split :
      state.log ++ events = before ++ .put .releases url bytes :: behind) :
    AllInPlace mirror after before := by
  have inLog :
      ∃ rest, state.log = before ++ .put .releases url bytes :: rest := by
    rcases List.append_eq_append_iff.1 split with
      ⟨more, isBefore, isEvents⟩ | ⟨more, isLog, isBehind⟩
    · refine absurd ?_ (unsent url bytes)
      rw [isEvents]
      exact List.mem_append_right _ List.mem_cons_self
    · cases more with
      | nil =>
          refine absurd ?_ (unsent url bytes)
          rw [List.nil_append] at isBehind
          rw [← isBehind]
          exact List.mem_cons_self
      | cons event more =>
          rw [List.cons_append] at isBehind
          cases isBehind
          exact ⟨more, isLog⟩
  rcases inLog with ⟨rest, isLog⟩
  refine keeps (ordered.last url bytes ?_) before ?_
  · rw [isLog]
    exact List.mem_append_right _ List.mem_cons_self
  · exact ordered.released before url bytes rest isLog

/-- A step that leaves the main thread and the uploads as they are. -/
theorem frame
    (done :
      ∀ worker signed, state.suites worker = .done signed →
        after.suites worker = .done signed)
    (toRead : after.toRead = state.toRead)
    (uploads : after.uploads = state.uploads) (main : after.main = state.main)
    (fetchList : after.fetchList = state.fetchList)
    (fetches : after.fetches = state.fetches) (debs : after.debs = state.debs)
    (puts : after.puts = state.puts) (log : after.log = state.log) :
    Ordered mirror after := by
  have tasks : tasksOf mirror after = tasksOf mirror state := by
    funext round
    cases round with
    | debs => rw [tasksOf, tasksOf, debs]
    | indices => exact uploads
    | releases => rfl
  refine
    { collected := fun worker suite isSuite path wanted => ?_
      drained := by rw [main, toRead]; exact ordered.drained
      fetched := by
        rw [fetchList, fetches, log, debs]
        exact ordered.fetched
      allFetched := by
        rw [main, fetchList, fetches]
        exact ordered.allFetched
      sent := by rw [main, tasks, puts, log]; exact ordered.sent
      earlier := by rw [main, tasks, log]; exact ordered.earlier
      wet := by rw [puts, log]; exact ordered.wet
      last := by rw [main, log]; exact ordered.last
      released := fun before url bytes behind split => ?_ }
  · rw [toRead, uploads]
    exact
      (ordered.collected worker suite isSuite path wanted).imp_right
        fun collected => collected.mono done fun _ member => member
  · rw [log] at split
    exact
      (ordered.released before url bytes behind split).mono done debs
        fetchList

end Ordered

/-! ## Packages -/

namespace Ordered

variable (ordered : Ordered mirror state)

include ordered

theorem behindFetch
    [DecidableEq Place] {worker : Nat} {choice : Choice} {fetch : Fetch}
    {result : FetchResult Place} (fetching : state.main = .fetching)
    (isFetch : state.fetchList[worker]? = some fetch)
    (acts :
      FetchActs mirror fetch state.files state.debs (state.fetches worker)
        choice result) :
    Ordered mirror (state.behindFetch worker result) := by
  have notPutting : ∀ round, state.main ≠ .putting round := by
    rw [fetching]
    nofun
  have unsent : ∀ round url bytes, .put round url bytes ∉ result.events := by
    intro round url bytes member
    generalize state.fetches worker = phase at acts
    cases acts with
    | present => cases List.mem_singleton.1 member
    | _ => cases member
  refine
    { collected := ordered.collected
      drained := ordered.drained
      fetched := ?_
      allFetched := fun round putting => absurd putting (notPutting round)
      sent := fun round putting => absurd putting (notPutting round)
      earlier := fun round putting => absurd putting (notPutting round)
      wet := fun isDry => ⟨(ordered.wet isDry).1, ?_⟩
      last := ?_
      released := fun before url bytes behind split =>
        ordered.released_append (unsent .releases) ?_ split }
  · intro other found isFound isDone
    by_cases same : other = worker
    · subst same
      change state.fetchList[other]? = some found at isFound
      rw [isFetch] at isFound
      cases isFound
      rw [fetches_behindFetch] at isDone
      have before := ordered.fetched other fetch isFetch
      generalize state.fetches other = phase at acts before
      cases acts with
      | present =>
          exact
            Or.inl
              (List.mem_append_right _ (List.mem_singleton_self _))
      | accept => exact Or.inr (mem_keys_setItem.2 (Or.inl rfl))
      | _ => cases isDone
    · rw [fetches_behindFetch_of_ne same] at isDone
      rcases ordered.fetched other found isFound isDone with
        present | known
      · exact Or.inl (List.mem_append_left _ present)
      · refine Or.inr ?_
        generalize state.fetches worker = phase at acts
        cases acts with
        | accept => exact mem_keys_setItem.2 (Or.inr known)
        | _ => exact known
  · intro round url bytes member
    rcases List.mem_append.1 member with earlier | now
    · exact (ordered.wet isDry).2 round url bytes earlier
    · exact unsent round url bytes now
  · intro url bytes member
    rcases List.mem_append.1 member with earlier | now
    · exact ordered.last url bytes earlier
    · exact absurd now (unsent .releases url bytes)
  · intro isLast
    rw [fetching] at isLast
    cases isLast

/-! ## Uploads -/

theorem behindPut
    {worker : Nat} {round : Round} {task : Task} {phase : PutPhase}
    {events : List Event} (putting : state.main = .putting round)
    (isTask : (tasksOf mirror state round)[worker]? = some task)
    (acts :
      PutActs mirror round task state.files (state.puts worker) phase
        events) :
    Ordered mirror (state.behindPut worker phase events) := by
  have here :
      phase = .sending ∨ phase = .done →
        Handled mirror (state.log ++ events) task.url := by
    intro isSent
    have before := ordered.sent round putting worker task isTask
    generalize state.puts worker = earlier at acts before
    cases acts with
    | present =>
        exact
          Or.inr
            (Or.inr (List.mem_append_right _ (List.mem_singleton_self _)))
    | dry isDry => exact Or.inl isDry
    | @send phase bytes wet held =>
        exact
          Or.inr
            (Or.inl
              ⟨round, bytes,
                List.mem_append_right _ (List.mem_singleton_self _)⟩)
    | answered => exact (before (Or.inl rfl)).append []
    | fail => rcases isSent with isSending | isDone <;> contradiction
  have dry :
      mirror.dryRun = true →
        phase ≠ .sending ∧ ∀ of url bytes, .put of url bytes ∉ events := by
    intro isDry
    have idle := (ordered.wet isDry).1 worker
    generalize state.puts worker = earlier at acts idle
    cases acts with
    | present =>
        refine ⟨by nofun, fun of url bytes member => ?_⟩
        cases List.mem_singleton.1 member
    | send wet held =>
        rcases wet with isSending | isWet
        · exact absurd isSending idle
        · rw [isDry] at isWet
          cases isWet
    | answered => exact absurd rfl idle
    | _ => exact ⟨by nofun, fun _ _ _ => List.not_mem_nil⟩
  have own :
      ∀ of url bytes, .put of url bytes ∈ events → of = round := by
    intro of url bytes member
    generalize state.puts worker = earlier at acts
    cases acts with
    | present => cases List.mem_singleton.1 member
    | send =>
        cases List.mem_singleton.1 member
        rfl
    | _ => cases member
  refine
    { collected := ordered.collected
      drained := ordered.drained
      fetched := ?_
      allFetched := ordered.allFetched
      sent := ?_
      earlier := fun of isOf former lower other member =>
        (ordered.earlier of isOf former lower other member).append events
      wet := fun isDry => ⟨?_, ?_⟩
      last := ?_
      released := ?_ }
  · intro other fetch isFetch isDone
    exact
      (ordered.fetched other fetch isFetch isDone).imp_left
        fun member => List.mem_append_left _ member
  · intro of isOf other found isFound isSent
    have same : of = round := by
      change state.main = .putting of at isOf
      rw [putting] at isOf
      cases isOf
      rfl
    subst same
    by_cases isWorker : other = worker
    · subst isWorker
      change (tasksOf mirror state of)[other]? = some found at isFound
      rw [isTask] at isFound
      cases isFound
      simp only [State.behindPut, Function.update_self] at isSent
      exact here isSent
    · simp only [State.behindPut, Function.update_of_ne isWorker] at isSent
      exact (ordered.sent of putting other found isFound isSent).append events
  · intro other
    by_cases isWorker : other = worker
    · subst isWorker
      simp only [State.behindPut, Function.update_self]
      exact (dry isDry).1
    · simp only [State.behindPut, Function.update_of_ne isWorker]
      exact (ordered.wet isDry).1 other
  · intro of url bytes member
    rcases List.mem_append.1 member with earlier | now
    · exact (ordered.wet isDry).2 of url bytes earlier
    · exact (dry isDry).2 of url bytes now
  · intro url bytes member
    rcases List.mem_append.1 member with earlier | now
    · exact ordered.last url bytes earlier
    · change IsLast state.main
      rw [putting, ← own .releases url bytes now]
      trivial
  · intro before url bytes behind split
    have keeps :
        ∀ log, AllInPlace mirror state log →
          AllInPlace mirror (state.behindPut worker phase events) log :=
      fun _ all => all.mono (fun _ _ isDone => isDone) rfl rfl
    by_cases unsent : ∀ url bytes, .put .releases url bytes ∉ events
    · exact ordered.released_append unsent (fun _ => keeps) split
    · push Not at unsent
      rcases unsent with ⟨sentUrl, sentBytes, isSent⟩
      have wet : mirror.dryRun = false :=
        Bool.eq_false_iff.2 fun isDry => (dry isDry).2 _ _ _ isSent
      rw [← own _ _ _ isSent] at putting
      have all := ordered.allInPlace wet putting
      rcases acts.events_eq with none | ⟨event, one⟩
      · rw [none] at isSent
        cases isSent
      · rw [State.behindPut, one] at split
        rcases List.eq_nil_or_concat behind with rfl | ⟨rest, final, rfl⟩
        · rw [← (List.append_inj' split rfl).1]
          exact keeps _ all
        · rw [List.concat_eq_append, ← List.cons_append,
            ← List.append_assoc] at split
          exact
            keeps before
              (ordered.released before url bytes rest
                (List.append_inj' split rfl).1)

/-! ## The main thread -/

theorem behindRound
    {round : Round} (putting : state.main = .putting round)
    (done :
      putsDone mirror state (tasksOf mirror state round).length = true) :
    Ordered mirror
      { state with main := nextRound round, puts := fun _ => .waiting } := by
  have allSent :
      ∀ task ∈ tasksOf mirror state round,
        Handled mirror state.log task.url := by
    intro task member
    rcases List.getElem?_of_mem member with ⟨worker, isTask⟩
    refine ordered.sent round putting worker task isTask (Or.inr ?_)
    exact putsDone_iff.1 done worker (List.getElem?_eq_some_iff.1 isTask).1
  have drained : state.toRead = [] :=
    ordered.drained (by rw [putting]; nofun) (by rw [putting]; nofun)
  refine
    { collected := ordered.collected
      drained := fun _ _ => drained
      fetched := ordered.fetched
      allFetched := fun _ _ => ordered.allFetched round putting
      sent := ?_
      earlier := ?_
      wet := fun isDry => ⟨fun _ => by nofun, (ordered.wet isDry).2⟩
      last := ?_
      released := ?_ }
  · rintro of - worker task - (impossible | impossible)
    · cases impossible
    · cases impossible
  · intro of isOf former lower task member
    by_cases same : former = round
    · subst same
      exact allSent task member
    · refine ordered.earlier round putting former ?_ task member
      cases round with
      | debs =>
          cases isOf
          cases former with
          | debs => exact absurd rfl same
          | indices => exact absurd lower (by decide)
          | releases => exact absurd lower (by decide)
      | indices =>
          cases isOf
          cases former with
          | debs => decide
          | indices => exact absurd rfl same
          | releases => exact absurd lower (by decide)
      | releases => cases isOf
  · intro url bytes member
    have isLast := ordered.last url bytes member
    rw [putting] at isLast
    cases round with
    | releases => trivial
    | _ => cases isLast
  · intro before url bytes behind split
    exact
      (ordered.released before url bytes behind split).mono
        (fun _ _ isDone => isDone) rfl rfl

theorem behindMain
    [DecidableEq Place] (acts : MainActs mirror state after) :
    Ordered mirror after := by
  have unsent :
      state.main = .collecting ∨ state.main = .fetching →
        ∀ url bytes, .put .releases url bytes ∉ state.log := by
    intro isEarly url bytes member
    have isLast := ordered.last url bytes member
    rcases isEarly with isEarly | isEarly
    · rw [isEarly] at isLast
      cases isLast
    · rw [isEarly] at isLast
      cases isLast
  have split :
      (∀ url bytes, .put .releases url bytes ∉ state.log) →
        ∀ before url bytes behind,
          state.log ≠ before ++ .put .releases url bytes :: behind := by
    intro unsent before url bytes behind same
    refine unsent url bytes ?_
    rw [same]
    exact List.mem_append_right _ List.mem_cons_self
  cases acts with
  | @read worker path rest suite signed want sets collecting reads isSuite
      isDone listed collects =>
      have unsent := unsent (Or.inl collecting)
      refine
        { collected := ?_
          drained := fun collected => absurd collecting collected
          fetched := ordered.fetched
          allFetched := ordered.allFetched
          sent := ?_
          earlier := ?_
          wet := ordered.wet
          last := fun url bytes member => absurd member (unsent url bytes)
          released := fun before url bytes behind same =>
            absurd same (split unsent before url bytes behind) }
      · intro other found isFound target wanted
        rcases ordered.collected other found isFound target wanted with
          unread | collected
        · rw [reads] at unread
          rcases List.mem_cons.1 unread with same | later
          · cases same
            rw [isSuite] at isFound
            cases isFound
            exact
              Or.inr
                ⟨signed, want, isDone, listed,
                  fun _ member => List.mem_append_right _ member⟩
          · exact Or.inl later
        · exact
            Or.inr
              (collected.mono (fun _ _ isDone => isDone)
                fun _ member => List.mem_append_left _ member)
      · intro round putting
        rw [collecting] at putting
        cases putting
      · intro round putting
        rw [collecting] at putting
        cases putting
  | stop collecting =>
      have unsent := unsent (Or.inl collecting)
      exact
        { collected := ordered.collected
          drained := fun _ going => absurd rfl going
          fetched := ordered.fetched
          allFetched := by nofun
          sent := by nofun
          earlier := by nofun
          wet := ordered.wet
          last := fun url bytes member => absurd member (unsent url bytes)
          released := fun before url bytes behind same =>
            absurd same (split unsent before url bytes behind) }
  | selected collecting reads done found =>
      have unsent := unsent (Or.inl collecting)
      exact
        { collected := ordered.collected
          drained := fun _ _ => reads
          fetched := by nofun
          allFetched := by nofun
          sent := by nofun
          earlier := by nofun
          wet := ordered.wet
          last := fun url bytes member => absurd member (unsent url bytes)
          released := fun before url bytes behind same =>
            absurd same (split unsent before url bytes behind) }
  | fetched fetching done =>
      have unsent := unsent (Or.inr fetching)
      have drained : state.toRead = [] :=
        ordered.drained (by rw [fetching]; nofun) (by rw [fetching]; nofun)
      refine
        { collected := ordered.collected
          drained := fun _ _ => drained
          fetched := ordered.fetched
          allFetched := fun _ _ => fetchesDone_iff.1 done
          sent := ?_
          earlier := ?_
          wet := fun isDry => ⟨fun _ => by nofun, (ordered.wet isDry).2⟩
          last := fun url bytes member => absurd member (unsent url bytes)
          released := fun before url bytes behind same =>
            absurd same (split unsent before url bytes behind) }
      · rintro of - worker task - (impossible | impossible)
        · cases impossible
        · cases impossible
      · intro of isOf former lower
        cases isOf
        exact absurd lower (Nat.not_lt_zero _)
  | round putting done => exact ordered.behindRound putting done

end Ordered

/-! ## Runs -/

end Confos.Apt.MirrorRun
