import Confos.Image.StagedRecovery
import Mathlib.Data.Finset.Max
import Mathlib.Data.Prod.Lex

/-!
# The next build

Where every directory the builds made is marked, a build that is not killed
gets through its sweep and its staging: in each phase some file operation is
possible, and each of them brings the build closer to its end.
-/

namespace Confos.Image.StagedCompletion

open Confos.Library.Machines
open Confos.Image.StagedProfiles
open Confos.Image.StagedSteps
open Confos.Image.StagedSafety
open Confos.Image.StagedRecovery

/-! ## Operations that are possible -/

/-- Below a name there is always something that can be removed. -/
theorem exists_removable
    {tree : Tree} {name : String} (present : tree[[name]]? ≠ none) :
    ∃ path, removeUnder tree name path = some (tree.erase path) ∧
      (tree.erase path).size < tree.size := by
  let below := tree.keys.toFinset.filter (·.head? = some name)
  have nonempty : below.Nonempty := by
    refine ⟨[name], Finset.mem_filter.2 ⟨?_, rfl⟩⟩
    exact List.mem_toFinset.2 (mem_keys_iff.2 present)
  rcases Finset.exists_max_image below List.length nonempty with
    ⟨path, member, longest⟩
  rcases Finset.mem_filter.1 member with ⟨listed, head⟩
  have listed : path ∈ tree.keys := List.mem_toFinset.1 listed
  refine ⟨path, ?_, ?_⟩
  · have childless : isEmptyDir tree path = true := by
      apply List.all_eq_true.2
      intro other otherListed
      rw [Bool.or_eq_true, decide_eq_true_iff, Bool.not_eq_true']
      by_cases prefixed : path.isPrefixOf other = true
      · right
        have leads := List.isPrefixOf_iff_prefix.1 prefixed
        have otherHead : other.head? = some name := by
          rcases leads with ⟨rest, rfl⟩
          rw [List.head?_append, head]
          rfl
        have bounded :=
          longest other
            (Finset.mem_filter.2
              ⟨List.mem_toFinset.2 otherListed, otherHead⟩)
        exact (leads.eq_of_length_le bounded).symm
      · left
        exact Bool.not_eq_true _ ▸ prefixed
    rw [removeUnder, if_pos head]
    cases found : tree[path]? with
    | none => exact absurd found (mem_keys_iff.1 listed)
    | some node =>
        cases node with
        | dir => exact if_pos childless
        | file content mode => rfl
        | link target => rfl
  · rw [Std.ExtTreeMap.size_erase, if_pos]
    · have positive : 0 < tree.size := by
        rw [← Std.ExtTreeMap.length_keys]
        exact List.length_pos_of_mem listed
      exact Nat.sub_lt positive Nat.one_pos
    · rw [Std.ExtTreeMap.contains_iff_mem]
      exact Std.ExtTreeMap.mem_keys.1 listed

/-- Among the entries still to copy there is one whose directory is there. -/
theorem exists_copyable
    {tree : Tree} {dir : ProfileDir} {pending : List (Path × Node)}
    (half : HalfCopied tree dir pending)
    (standing : tree[[dir.name]]? = some .dir)
    (inside : ∀ entry ∈ pending, entry ∈ dir.entries)
    (nonempty : pending ≠ []) :
    ∃ path node, pendingAt tree dir.name pending path = some node := by
  rcases List.exists_mem_of_ne_nil pending nonempty with ⟨first, isPending⟩
  rcases Finset.exists_min_image pending.toFinset (·.1.length)
      ⟨first, List.mem_toFinset.2 isPending⟩ with
    ⟨⟨path, node⟩, member, shortest⟩
  have member : (path, node) ∈ pending := List.mem_toFinset.1 member
  have pathNonempty := dir.entries_nonempty _ (inside _ member)
  have parent : tree[(dir.name :: path).dropLast]? = some .dir := by
    rw [List.dropLast_cons_of_ne_nil pathNonempty]
    by_cases top : path.dropLast = []
    · rw [top]
      exact standing
    · have parentEntry := dir.entries_rooted _ (inside _ member) top
      rw [half.copied, stagedNode_of_mem parentEntry]
      intro parentPending
      rcases List.mem_map.1 parentPending with ⟨other, otherPending, same⟩
      have bounded := shortest other (List.mem_toFinset.2 otherPending)
      have positive := List.length_pos_iff.2 pathNonempty
      rw [same, List.length_dropLast] at bounded
      omega
  cases looked : pending.lookup path with
  | none =>
      have absent := List.lookup_eq_none_iff.1 looked _ member
      simp at absent
  | some found =>
      refine ⟨path, found, ?_⟩
      rw [pendingAt, if_pos parent]
      exact looked

/-! ## The stages of a build -/

/-- Arguments that a clean checkout accepts and has room for. -/
structure Acceptable (base : Tree) (arguments : List ProfileDir) : Prop where
  accepted : ∃ names, checkProfileDirs base arguments = .ok names
  markerFree :
    ∀ dir ∈ arguments, ([stagedProfileMarker], Node.dir) ∉ dir.entries

/-- From the start of a build to the end of its staging. -/
def Staging : Phase → Prop
  | .idle => False
  | .dropping _ => False
  | .dropRemoving _ _ => False
  | _ => True

structure Stage (base : Tree) (arguments : List ProfileDir)
    (checkout : Checkout) : Prop where
  careful : Careful base checkout
  arguments_eq : checkout.arguments = arguments
  staging : Staging checkout.phase

/-- How far a build is from the end of its staging. -/
def rank (checkout : Checkout) : Nat ×ₗ Nat :=
  let count := 3 * checkout.arguments.length
  match checkout.phase with
  | .sweeping todo => toLex (count + 2 * todo.length + 2, 0)
  | .sweepRemoving _ todo =>
      toLex (count + 2 * todo.length + 3, checkout.tree.size)
  | .checking => toLex (count + 1, 0)
  | .creating _ rest _ =>
      toLex (3 * rest.length + 3, if checkout.rootExists then 0 else 1)
  | .marking _ rest _ => toLex (3 * rest.length + 2, 0)
  | .copying _ pending rest _ =>
      toLex (3 * rest.length + 1, pending.length)
  | _ => toLex (0, 0)

theorem rank_lt_of_fst
    {lower upper : Nat ×ₗ Nat} (less : (ofLex lower).1 < (ofLex upper).1) :
    lower < upper :=
  Prod.Lex.lt_iff.2 (Or.inl less)

theorem rank_lt_of_snd
    {lower upper : Nat ×ₗ Nat}
    (same : (ofLex lower).1 = (ofLex upper).1)
    (less : (ofLex lower).2 < (ofLex upper).2) :
    lower < upper :=
  Prod.Lex.lt_iff.2 (Or.inr ⟨same, less⟩)

theorem rank_nextDir_lt
    {checkout : Checkout} {rest : List ProfileDir} {guards : List String}
    (phase : checkout.phase = nextDir rest guards) :
    (ofLex (rank checkout)).1 < 3 * rest.length + 1 := by
  cases rest with
  | nil =>
      rw [rank, phase]
      exact Nat.one_pos
  | cons dir rest =>
      rw [rank, phase]
      exact Nat.lt_succ_self _

theorem staging_nextDir (rest : List ProfileDir) (guards : List String) :
    Staging (nextDir rest guards) := by
  cases rest <;> trivial

section

variable {base : Tree} {arguments : List ProfileDir}
    {checkout after : Checkout}

theorem Stage.of_step
    (stage : Stage base arguments checkout) (baseRooted : Rooted base)
    (unmarked : Unmarked base) {action : Action} (alive : action ≠ .kill)
    (steps : Steps checkout action after)
    (sameArguments : after.arguments = checkout.arguments)
    (staging : Staging after.phase) :
    Stage base arguments after where
  careful :=
    stage.careful.step baseRooted unmarked (fun killed => absurd killed alive)
      (step_of_steps steps)
  arguments_eq := sameArguments.trans stage.arguments_eq
  staging := staging

/-- The build has been brought closer to the end of its staging. -/
def Advances (base : Tree) (arguments : List ProfileDir)
    (checkout : Checkout) : Prop :=
  ∃ next, Reaches step (· ≠ .kill) checkout next ∧
    Stage base arguments next ∧ rank next < rank checkout

theorem Stage.advances
    (stage : Stage base arguments checkout) (baseRooted : Rooted base)
    (unmarked : Unmarked base) {action : Action} (alive : action ≠ .kill)
    (steps : Steps checkout action after)
    (sameArguments : after.arguments = checkout.arguments)
    (staging : Staging after.phase) (lower : rank after < rank checkout) :
    Advances base arguments checkout :=
  ⟨after, Reaches.of_step alive (step_of_steps steps),
    stage.of_step baseRooted unmarked alive steps sameArguments staging,
    lower⟩

theorem Stage.advances_sweeping
    (stage : Stage base arguments checkout) (baseRooted : Rooted base)
    (unmarked : Unmarked base) {todo : List String}
    (phase : checkout.phase = .sweeping todo) :
    Advances base arguments checkout := by
  cases todo with
  | nil =>
      refine
        stage.advances baseRooted unmarked (by simp)
          (@Steps.endSweep _ true phase) rfl trivial ?_
      apply rank_lt_of_fst
      rw [rank, rank, phase]
      exact Nat.lt_succ_self _
  | cons name todo =>
      by_cases swept :
          checkout.tree[[name]]? = some .dir ∧
            isFile true checkout.tree[[name, stagedProfileMarker]]? = true
      · refine
          stage.advances baseRooted unmarked (by simp) (.sweep phase swept)
            rfl trivial ?_
        apply rank_lt_of_fst
        rw [rank, rank, phase]
        exact Nat.lt_succ_self _
      · refine
          stage.advances baseRooted unmarked (by simp) (.pass phase swept)
            rfl trivial ?_
        apply rank_lt_of_fst
        rw [rank, rank, phase]
        simp only [ofLex_toLex, List.length_cons]
        omega

theorem Stage.advances_sweepRemoving
    (stage : Stage base arguments checkout) (baseRooted : Rooted base)
    (unmarked : Unmarked base) {name : String} {todo : List String}
    (phase : checkout.phase = .sweepRemoving name todo) :
    Advances base arguments checkout := by
  have standing := stage.careful.safe.standing
  rw [phase] at standing
  rcases exists_removable standing with ⟨path, removed, smaller⟩
  by_cases whole : path = [name]
  · subst whole
    refine
      stage.advances baseRooted unmarked (by simp) (.endRemove phase removed)
        rfl trivial ?_
    apply rank_lt_of_fst
    rw [rank, rank, phase]
    exact Nat.lt_succ_self _
  · refine
      stage.advances baseRooted unmarked (by simp)
        (.sweepBelow phase removed whole) rfl stage.staging ?_
    rw [rank, rank, phase]
    exact rank_lt_of_snd rfl smaller

theorem Stage.advances_checking
    (stage : Stage base arguments checkout) (baseRooted : Rooted base)
    (unmarked : Unmarked base) (acceptable : Acceptable base arguments)
    (phase : checkout.phase = .checking) :
    Advances base arguments checkout := by
  have clean := stage.careful.recoverable
  rw [Recoverable, phase] at clean
  have sameTree : checkout.tree = base :=
    tree_eq_base baseRooted stage.careful.safe.rooted
      stage.careful.safe.inTree clean
  rcases acceptable.accepted with ⟨names, accepted⟩
  rw [← sameTree, ← stage.arguments_eq] at accepted
  refine
    stage.advances baseRooted unmarked (by simp) (.accept phase accepted) rfl
      (staging_nextDir _ _) ?_
  apply rank_lt_of_fst
  have lower :=
    @rank_nextDir_lt
      { checkout with phase := nextDir checkout.arguments [] } _ _ rfl
  rw [show rank checkout = toLex (3 * checkout.arguments.length + 1, 0) by
    rw [rank, phase]]
  exact lower

theorem Stage.advances_creating
    (stage : Stage base arguments checkout) (baseRooted : Rooted base)
    (unmarked : Unmarked base) {dir : ProfileDir} {rest : List ProfileDir}
    {guards : List String}
    (phase : checkout.phase = .creating dir rest guards) :
    Advances base arguments checkout := by
  cases root : checkout.rootExists with
  | false =>
      refine
        stage.advances baseRooted unmarked (by simp) (.createRoot phase root)
          rfl stage.staging ?_
      rw [rank, rank, phase, root]
      exact rank_lt_of_snd rfl Nat.one_pos
  | true =>
      refine
        stage.advances baseRooted unmarked (by simp)
          (.createTarget phase root) rfl trivial ?_
      apply rank_lt_of_fst
      rw [rank, rank, phase]
      exact Nat.lt_succ_self _

theorem Stage.advances_marking
    (stage : Stage base arguments checkout) (baseRooted : Rooted base)
    (unmarked : Unmarked base) {dir : ProfileDir} {rest : List ProfileDir}
    {guards : List String}
    (phase : checkout.phase = .marking dir rest guards) :
    Advances base arguments checkout := by
  refine
    stage.advances baseRooted unmarked (by simp) (.mark phase) rfl trivial ?_
  apply rank_lt_of_fst
  rw [rank, rank, phase]
  exact Nat.lt_succ_self _

theorem length_filter_lt
    {pending : List (Path × Node)} {path : Path} {node : Node}
    (member : (path, node) ∈ pending) :
    (pending.filter (·.1 ≠ path)).length < pending.length := by
  apply List.length_filter_lt_length_iff_exists.2
  exact ⟨_, member, by simp⟩

theorem Stage.advances_copying
    (stage : Stage base arguments checkout) (baseRooted : Rooted base)
    (unmarked : Unmarked base) (acceptable : Acceptable base arguments)
    {dir : ProfileDir} {pending : List (Path × Node)}
    {rest : List ProfileDir} {guards : List String}
    (phase : checkout.phase = .copying dir pending rest guards) :
    Advances base arguments checkout := by
  by_cases empty : pending = []
  · rw [empty] at phase
    refine
      stage.advances baseRooted unmarked (by simp) (.endCopy phase) rfl
        (staging_nextDir _ _) ?_
    apply rank_lt_of_fst
    have lower :=
      @rank_nextDir_lt
        { checkout with
          profiles := pushProfile checkout.profiles dir.name
          phase := nextDir rest guards } _ _ rfl
    rw [show rank checkout = toLex (3 * rest.length + 1, 0) by
      rw [rank, phase]
      rfl]
    exact lower
  · have standing := stage.careful.safe.standing
    have recoverable := stage.careful.recoverable
    rw [phase] at standing
    rw [Recoverable, phase] at recoverable
    rcases recoverable with ⟨done, progress, guarded, clean, half⟩
    rcases exists_copyable half standing.1 standing.2 empty with
      ⟨path, node, found⟩
    have member := (mem_of_pendingAt found).1
    rcases canReplace_of_waiting (half.waiting path node member) with
      free | ⟨content, mode, present, marker, kind⟩
    · refine
        stage.advances baseRooted unmarked (by simp)
          (.copyEntry phase found free) rfl trivial ?_
      rw [rank, rank, phase]
      exact rank_lt_of_snd rfl (length_filter_lt member)
    · rcases kind with rfl | ⟨target, rfl⟩
      · have given : dir ∈ arguments := by
          rw [← stage.arguments_eq, progress.arguments_eq]
          simp
        have marked := standing.2 _ member
        rw [marker] at marked
        exact absurd marked (acceptable.markerFree dir given)
      · have nonempty : path ≠ [] :=
          dir.entries_nonempty _ (standing.2 _ member)
        let unlinked : Checkout :=
          { checkout with tree := checkout.tree.erase (dir.name :: path) }
        have unlinks : Steps checkout (.unlinkOld path) unlinked :=
          .unlinkOld phase found present (by simp)
        have unlinkedStage : Stage base arguments unlinked :=
          stage.of_step baseRooted unmarked (by simp) unlinks rfl
            stage.staging
        have foundAgain :
            pendingAt unlinked.tree dir.name pending path =
              some (.link target) := by
          have sameParent :
              unlinked.tree[(dir.name :: path).dropLast]? =
                checkout.tree[(dir.name :: path).dropLast]? := by
            rw [getElem?_erase_path, if_neg]
            rw [List.dropLast_cons_of_ne_nil nonempty]
            intro same
            have lengths := congrArg List.length (List.cons.inj same).2
            have positive := List.length_pos_iff.2 nonempty
            rw [List.length_dropLast] at lengths
            omega
          rw [pendingAt, sameParent]
          exact found
        have free :
            (Node.link target).canReplace
              unlinked.tree[dir.name :: path]? = true := by
          rw [getElem?_erase_path, if_pos rfl]
          rfl
        have copies := @Steps.copyEntry unlinked _ _ _ _ _ _ phase foundAgain free
        refine
          ⟨_, (Reaches.of_step (by simp) (step_of_steps unlinks)).trans
              (Reaches.of_step (by simp) (step_of_steps copies)),
            unlinkedStage.of_step baseRooted unmarked (by simp) copies rfl
              trivial, ?_⟩
        rw [rank, rank, phase]
        exact rank_lt_of_snd rfl (length_filter_lt member)

/-- A build that is not killed gets to the end of its staging. -/
theorem Stage.exists_staged
    (stage : Stage base arguments checkout) (baseRooted : Rooted base)
    (unmarked : Unmarked base) (acceptable : Acceptable base arguments) :
    ∃ finish, Reaches step (· ≠ .kill) checkout finish ∧
      Stage base arguments finish ∧
        ∃ guards, finish.phase = .staged guards := by
  refine exists_reaches_of_rank rank ?_ checkout stage
  intro state stage
  cases phase : state.phase with
  | idle => exact absurd stage.staging (by simp [phase, Staging])
  | sweeping todo =>
      exact Or.inr (stage.advances_sweeping baseRooted unmarked phase)
  | sweepRemoving name todo =>
      exact Or.inr (stage.advances_sweepRemoving baseRooted unmarked phase)
  | checking =>
      exact
        Or.inr (stage.advances_checking baseRooted unmarked acceptable phase)
  | creating dir rest guards =>
      exact Or.inr (stage.advances_creating baseRooted unmarked phase)
  | marking dir rest guards =>
      exact Or.inr (stage.advances_marking baseRooted unmarked phase)
  | copying dir pending rest guards =>
      exact
        Or.inr (stage.advances_copying baseRooted unmarked acceptable phase)
  | staged guards => exact Or.inl ⟨stage, guards, rfl⟩
  | dropping guards => exact absurd stage.staging (by simp [phase, Staging])
  | dropRemoving name guards =>
      exact absurd stage.staging (by simp [phase, Staging])

end

end Confos.Image.StagedCompletion
