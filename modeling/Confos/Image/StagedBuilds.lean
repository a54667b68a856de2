import Confos.Image.StagedCompletion

/-!
# Runs of builds

Every sequence of builds of one checkout is a run of the machine.  What the
checkout held before the first build is never touched.  If in addition every
kill of the run finds the directories that the builds made marked, then each
build fails only where it would have failed on the clean checkout, stages the
given profiles and nothing else, and a next build gets through.
-/

namespace Confos.Image.StagedBuilds

open Confos.Library.Machines
open Confos.Image.StagedProfiles
open Confos.Image.StagedSafety
open Confos.Image.StagedRecovery
open Confos.Image.StagedCompletion

/-- Every kill of a run finds what the builds put there marked. -/
def KillsMarked (base : Tree) (rootExists : Bool) (actions : List Action) :
    Prop :=
  ∀ before after killed,
    actions = before ++ Action.kill :: after →
      run step (Checkout.clean rootExists base) before = some killed →
        AllMarked base killed.tree

/-- The given profiles are staged, and everything else is as it was. -/
structure StagedExactly (base : Tree) (checkout : Checkout) : Prop where
  copies : ∀ dir ∈ checkout.arguments, StagedAs checkout.tree dir
  others :
    ∀ name : String, name ∉ checkout.arguments.map (·.name) →
      ∀ rest : Path, checkout.tree[name :: rest]? = base[name :: rest]?

/-- No kill of an earlier build makes a difference. -/
structure Recovered (base : Tree) (checkout : Checkout) : Prop where
  honest : Honest base checkout
  checked : checkout.phase = .checking → checkout.tree = base
  staged :
    ∀ guards, checkout.phase = .staged guards → StagedExactly base checkout
  dropped : checkout.phase = .dropping [] → checkout.tree = base
  next :
    checkout.phase = .idle → ∀ arguments, Acceptable base arguments →
      ∃ finish guards, Reaches step (· ≠ .kill) checkout finish ∧
        finish.phase = .staged guards ∧ finish.arguments = arguments ∧
          StagedExactly base finish

section

variable {base : Tree} {rootExists : Bool} {actions : List Action}
    {checkout : Checkout}

theorem safe_clean (rooted : Rooted base) :
    Safe base (Checkout.clean rootExists base) :=
  ⟨rooted, fun _ _ _ => rfl, by simp [Checkout.clean, ownNames], trivial⟩

theorem careful_clean (rooted : Rooted base) :
    Careful base (Checkout.clean rootExists base) where
  safe := safe_clean rooted
  recoverable := by
    intro name residue
    exact absurd residue.1 residue.2
  honest :=
    ⟨(fun _ impossible => nomatch impossible),
      (fun _ impossible => nomatch impossible)⟩

theorem safe_of_run
    (rooted : Rooted base) (unmarked : Unmarked base)
    (ran : run step (Checkout.clean rootExists base) actions = some checkout) :
    Safe base checkout :=
  run_invariant (Safe base) (safe_clean rooted)
    (fun _ _ _ safe stepped => safe.step unmarked stepped) ran

theorem KillsMarked.of_concat
    {action : Action} (marked : KillsMarked base rootExists (actions ++ [action])) :
    KillsMarked base rootExists actions := by
  intro before after killed same ran
  apply marked before (after ++ [action]) killed _ ran
  rw [same, List.append_assoc, List.cons_append]

theorem careful_of_run
    (rooted : Rooted base) (unmarked : Unmarked base)
    (ran : run step (Checkout.clean rootExists base) actions = some checkout)
    (marked : KillsMarked base rootExists actions) :
    Careful base checkout := by
  refine
    run_history_invariant
      (fun taken state => KillsMarked base rootExists taken →
        Careful base state)
      (fun _ => careful_clean rooted) ?_ ran marked
  intro taken action before after took careful stepped marked
  refine (careful marked.of_concat).step rooted unmarked ?_ stepped
  rintro rfl
  exact marked taken [] before rfl took

theorem careful_tree_eq_base
    (careful : Careful base checkout) (rooted : Rooted base)
    (clean : ∀ name, ¬ Residue base checkout.tree name) :
    checkout.tree = base :=
  StagedRecovery.tree_eq_base rooted careful.safe.rooted careful.safe.inTree
    clean

theorem stagedExactly_of_careful
    (careful : Careful base checkout) (rooted : Rooted base)
    {guards : List String} (phase : checkout.phase = .staged guards) :
    StagedExactly base checkout := by
  have recoverable := careful.recoverable
  rw [Recoverable, phase] at recoverable
  rcases recoverable with ⟨progress, guarded, clean⟩
  refine ⟨progress.staged, ?_⟩
  intro name other rest
  by_cases present : base[[name]]? = none
  · have absent : checkout.tree[[name]]? = none := by
      by_contra residue
      apply other
      rw [← guarded]
      exact clean name ⟨present, residue⟩
    rw [careful.safe.rooted.below_eq_none absent,
      rooted.below_eq_none present]
  · exact careful.safe.inTree name present rest

/-- A build that is started on what was left behind. -/
theorem stage_of_start
    (careful : Careful base checkout) (rooted : Rooted base)
    (unmarked : Unmarked base) (phase : checkout.phase = .idle)
    (arguments : List ProfileDir) :
    ∃ started, Reaches step (· ≠ .kill) checkout started ∧
      Stage base arguments started := by
  have starts :
      step checkout (.start arguments [] (rootNames checkout.tree)) =
        some
          { checkout with
            phase := .sweeping (rootNames checkout.tree)
            arguments
            profiles := []
            problem := none } := by
    rw [step, phase]
    exact if_pos (List.Perm.refl _)
  refine ⟨_, Reaches.of_step (by simp) starts, ?_, rfl, trivial⟩
  refine careful.step rooted unmarked ?_ starts
  intro killed
  cases killed

theorem recovered_of_careful
    (careful : Careful base checkout) (rooted : Rooted base)
    (unmarked : Unmarked base) :
    Recovered base checkout where
  honest := careful.honest
  checked := by
    intro phase
    have clean := careful.recoverable
    rw [Recoverable, phase] at clean
    exact careful_tree_eq_base careful rooted clean
  staged := by
    intro guards phase
    exact stagedExactly_of_careful careful rooted phase
  dropped := by
    intro phase
    have clean := careful.recoverable
    rw [Recoverable, phase] at clean
    apply careful_tree_eq_base careful rooted
    intro name residue
    cases clean name residue
  next := by
    intro phase arguments acceptable
    rcases stage_of_start careful rooted unmarked phase arguments with
      ⟨started, led, stage⟩
    rcases stage.exists_staged rooted unmarked acceptable with
      ⟨finish, onward, finished, guards, staged⟩
    exact
      ⟨finish, guards, led.trans onward, staged, finished.arguments_eq,
        stagedExactly_of_careful finished.careful rooted staged⟩

/--
What was in the checkout stays as it was in every run of builds; and where
each kill finds the staged directories marked, the kills make no difference.
-/
theorem staged_profiles_recover
    (rooted : Rooted base) (unmarked : Unmarked base)
    (ran : run step (Checkout.clean rootExists base) actions = some checkout) :
    KeepsInTree base checkout.tree ∧
      (KillsMarked base rootExists actions → Recovered base checkout) := by
  constructor
  · exact (safe_of_run rooted unmarked ran).inTree
  · intro marked
    exact
      recovered_of_careful (careful_of_run rooted unmarked ran marked) rooted
        unmarked

end

/-! ## Kills around the marker -/

theorem KillsMarked.concat
    {base : Tree} {rootExists : Bool} {actions : List Action}
    {action : Action} (marked : KillsMarked base rootExists actions)
    (last :
      action = .kill → ∀ killed,
        run step (Checkout.clean rootExists base) actions = some killed →
          AllMarked base killed.tree) :
    KillsMarked base rootExists (actions ++ [action]) := by
  intro before after killed same ran
  rcases List.eq_nil_or_concat after with rfl | ⟨later, final, rfl⟩
  · rcases List.append_inj' same rfl with ⟨rfl, lastSame⟩
    exact last (List.cons.inj lastSame).1 killed ran
  · rw [List.concat_eq_append, ← List.cons_append, ← List.append_assoc] at same
    exact marked before later killed (List.append_inj' same rfl).1 ran

theorem killsMarked_of_not_mem
    {base : Tree} {rootExists : Bool} {actions : List Action}
    (alive : ∀ action ∈ actions, action ≠ .kill) :
    KillsMarked base rootExists actions := by
  rintro before after killed rfl ran
  exact absurd rfl (alive .kill (by simp))

/-- A profile with one file. -/
def siteProfile : ProfileDir where
  path := "/profiles/site"
  name := "site"
  hasConf := true
  selfContained := .ok ()
  entries := [(["mkosi.conf"], .file [91] 0o644)]
  entries_nodup := by simp
  entries_nonempty := by simp
  entries_rooted := by simp

/-- A checkout with one profile of its own. -/
def devTree : Tree :=
  ((∅ : Tree).insert ["dev"] .dir).insert ["dev", "mkosi.conf"]
    (.file [91] 0o644)

theorem rooted_devTree : Rooted devTree := by
  have empty : Rooted ∅ := ⟨by simp, by simp⟩
  exact
    (empty.insert_dir "dev").insert_below (by simp) (by simp)
      (.file [91] 0o644)

theorem unmarked_devTree : Unmarked devTree := by
  intro name
  rw [devTree, getElem?_insert_path, getElem?_insert_path]
  simp [stagedProfileMarker]

theorem acceptable_siteProfile : Acceptable devTree [siteProfile] where
  accepted := ⟨["site"], by rfl⟩
  markerFree := by simp [siteProfile]

/-- A build that is killed between its directory and the marker. -/
def killedBeforeMarker : List Action :=
  [.start [siteProfile] [] ["dev"], .examine false, .examine false, .check,
    .createTarget, .kill]

/-- A build that is killed behind the marker. -/
def killedBehindMarker : List Action :=
  [.start [siteProfile] [] ["dev"], .examine false, .examine false, .check,
    .createTarget, .mark]

def nextBuild : List Action :=
  [.start [siteProfile] [] ["dev", "site"], .examine false, .examine false,
    .examine false, .check]

/-- What the second of these builds leaves. -/
def markedTree : Tree :=
  (devTree.insert ["site"] .dir).insert ["site", stagedProfileMarker]
    markerFile

theorem allMarked_markedTree : AllMarked devTree markedTree := by
  intro name residue
  rcases residue.of_insert with impossible | residue
  · cases impossible
  · rcases residue.of_insert with same | residue
    · cases same
      refine ⟨[], 0o644, ?_⟩
      rw [markedTree, getElem?_insert_path, if_pos rfl]
      rfl
    · exact absurd residue.1 residue.2

theorem unmarked_directory_blocks_next_build :
    Acceptable devTree [siteProfile] ∧
      ((run step (Checkout.clean true devTree)
          (killedBeforeMarker ++ nextBuild)).map fun checkout =>
        checkout.problem) =
        some
          (some
            (.refused
              "--profile-dir /profiles/site collides with in-tree profile \"site\" at mkosi/base/mkosi.profiles/site")) :=
  ⟨acceptable_siteProfile, by decide +kernel⟩

theorem staged_profiles_recover_marked :
    ∃ checkout,
      run step (Checkout.clean true devTree) (killedBehindMarker ++ [.kill]) =
          some checkout ∧
        KeepsInTree devTree checkout.tree ∧ Recovered devTree checkout := by
  have ran :
      run step (Checkout.clean true devTree) (killedBehindMarker ++ [.kill]) =
        some
          { rootExists := true
            tree := markedTree
            phase := .idle
            arguments := [siteProfile]
            profiles := []
            problem := none } := by
    rfl
  have marked : KillsMarked devTree true (killedBehindMarker ++ [.kill]) := by
    apply KillsMarked.concat
    · apply killsMarked_of_not_mem
      simp [killedBehindMarker]
    · rintro - killed killedRan
      cases killedRan
      exact allMarked_markedTree
  have recovers := staged_profiles_recover rooted_devTree unmarked_devTree ran
  exact ⟨_, ran, recovers.1, recovers.2 marked⟩

end Confos.Image.StagedBuilds
