import Confos.Image.BuildOverlay
import Mathlib.Data.List.Induction

/-!
# What one step does to the overlay

A file operation changes one entry, below a directory that is there, and never
takes the place of a directory.  With that a tree stays one, and what a
removed directory held is gone with it.  The turns of a build are taken apart
here once; the proofs about runs go by these cases.
-/

namespace Confos.Image.OverlaySteps

open Confos.Image.StagedProfiles (Node Path)
open Confos.Image.BuildOverlay
open Confos.Library.ByteStrings

/-! ## Trees -/

section

variable {tree after : Tree} {path other : Path}

theorem getElem?_insert_entry (tree : Tree) (path other : Path) (entry : Entry) :
    (tree.insert path entry)[other]? =
      if path = other then some entry else tree[other]? := by
  rw [Std.ExtTreeMap.getElem?_insert]
  simp only [Std.compare_eq_iff_eq]

theorem getElem?_erase_entry (tree : Tree) (path other : Path) :
    (tree.erase path)[other]? =
      if path = other then none else tree[other]? := by
  rw [Std.ExtTreeMap.getElem?_erase]
  simp only [Std.compare_eq_iff_eq]

theorem nodeAt_eq_none_iff : nodeAt tree path = none ↔ tree[path]? = none := by
  rw [nodeAt, Option.map_eq_none_iff]

theorem nodeAt_congr (same : after[path]? = tree[path]?) :
    nodeAt after path = nodeAt tree path := by
  rw [nodeAt, nodeAt, same]

/-- Whatever there is lies in a directory. -/
def Rooted (tree : Tree) : Prop :=
  ∀ path, path ≠ [] → tree[path]? ≠ none →
    nodeAt tree path.dropLast = some .dir

/-- Below a path with nothing at it there is nothing. -/
theorem Rooted.eq_none_of_prefix
    (rooted : Rooted tree) {root : Path} (absent : tree[root]? = none)
    (rest : Path) : tree[root ++ rest]? = none := by
  induction rest using List.reverseRecOn with
  | nil =>
      rw [List.append_nil]
      exact absent
  | append_singleton rest name induction =>
      by_contra present
      have parent := rooted (root ++ (rest ++ [name])) (by simp) present
      rw [← List.append_assoc, List.dropLast_concat,
        nodeAt_eq_none_iff.2 induction] at parent
      cases parent

/-! ## Writing an entry -/

/-- One entry is written, if anything is. -/
structure Writes (owner : Owner) (path : Path) (tree after : Tree) : Prop where
  parent : path ≠ [] → nodeAt tree path.dropLast = some .dir
  others : ∀ other, path ≠ other → after[other]? = tree[other]?
  owned :
    ∀ entry, after[path]? = some entry →
      entry.owner = owner ∨ tree[path]? = some entry
  dir : nodeAt tree path = some .dir → nodeAt after path = some .dir

theorem Writes.nodeAt_dir
    {owner : Owner} (writes : Writes owner path tree after)
    (standing : nodeAt tree other = some .dir) :
    nodeAt after other = some .dir := by
  by_cases here : path = other
  · cases here
    exact writes.dir standing
  · rw [nodeAt_congr (writes.others other here)]
    exact standing

theorem Rooted.of_writes
    {owner : Owner} (rooted : Rooted tree)
    (writes : Writes owner path tree after) : Rooted after := by
  intro other nonempty present
  apply writes.nodeAt_dir
  by_cases here : path = other
  · cases here
    exact writes.parent nonempty
  · rw [writes.others other here] at present
    exact rooted other nonempty present

/-- What an operation is there for. -/
def Makes : Op → Node → Prop
  | .makeDir _, node => node = .dir
  | .copy _ content mode, node => node = .file content mode
  | .write _ content, node => ∃ mode, node = .file content mode
  | .link _ target, node => node = .link target

theorem makes_of_result
    {op : Op} {present : Option Node} {node : Node}
    (result : op.result present = some node) : Makes op node := by
  unfold Op.result at result
  split at result
  case h_5 | h_6 =>
    cases result
    exact ⟨_, rfl⟩
  case h_10 => cases result
  all_goals
    cases result
    exact rfl

/-- A directory is replaced by nothing else. -/
theorem eq_dir_of_result
    {op : Op} {node : Node} (result : op.result (some .dir) = some node) :
    node = .dir := by
  cases op with
  | makeDir path =>
      cases result
      rfl
  | copy path content mode => cases result
  | write path content => cases result
  | link path target => cases result

theorem hasParent_eq_true_iff :
    hasParent tree path = true ↔
      (path ≠ [] → nodeAt tree path.dropLast = some .dir) := by
  rw [hasParent, Bool.or_eq_true, decide_eq_true_iff, decide_eq_true_iff]
  exact Classical.or_iff_not_imp_left

theorem of_perform_eq_some
    {owner : Owner} {op : Op} (performed : perform tree owner op = some after) :
    Writes owner op.path tree after ∧
      ∃ entry, after[op.path]? = some entry ∧ Makes op entry.node := by
  rw [perform] at performed
  rcases Option.ite_none_right_eq_some.1 performed with ⟨parent, written⟩
  rcases Option.map_eq_some_iff.1 written with ⟨node, result, written⟩
  have makes := makes_of_result result
  split at written
  · next standing =>
      cases written
      rw [standing] at result
      cases eq_dir_of_result result
      rcases Option.map_eq_some_iff.1 standing with ⟨entry, found, isDir⟩
      refine ⟨⟨hasParent_eq_true_iff.1 parent, fun _ _ => rfl,
        fun _ => Or.inr, id⟩, entry, found, ?_⟩
      rw [isDir]
      exact makes
  · next notDir =>
      cases written
      have here :
          (tree.insert op.path { node, owner })[op.path]? =
            some { node, owner } := by
        rw [getElem?_insert_entry, if_pos rfl]
      refine ⟨⟨hasParent_eq_true_iff.1 parent, ?_, ?_,
        fun standing => absurd standing notDir⟩, _, here, makes⟩
      · intro other elsewhere
        rw [getElem?_insert_entry, if_neg elsewhere]
      · intro entry found
        rw [here] at found
        cases found
        exact Or.inl rfl

theorem writes_of_attempt
    {owner : Owner} {op : Op} {content : Bytes}
    (attempted : attempt tree owner op content = some after) :
    Writes owner op.path tree after := by
  cases op with
  | makeDir path => cases attempted
  | copy path whole mode => exact (of_perform_eq_some attempted).1
  | write path whole => exact (of_perform_eq_some attempted).1
  | link path target =>
      rcases Option.map_eq_some_iff.1 attempted with ⟨linked, performed, erased⟩
      have writes := (of_perform_eq_some performed).1
      have makes := (of_perform_eq_some performed).2
      cases erased
      refine ⟨writes.parent, ?_, ?_, ?_⟩
      · intro other elsewhere
        rw [getElem?_erase_entry]
        exact if_neg elsewhere
      · intro entry found
        have gone : (tree.erase path)[path]? = none := by
          rw [getElem?_erase_entry, if_pos rfl]
        cases found.symm.trans gone
      · intro standing
        rcases makes with ⟨entry, found, isLink⟩
        have stays := writes.dir standing
        rw [nodeAt, found, Option.map_some, isLink] at stays
        cases stays

/-! ## Removing an entry -/

/-- An entry is removed that nothing lies in. -/
structure Removes (path : Path) (tree after : Tree) : Prop where
  erased : after = tree.erase path
  childless : ∀ other, other ≠ [] → other.dropLast = path → tree[other]? = none

theorem removes_of_removeAt
    (rooted : Rooted tree) (removed : removeAt tree path = some after) :
    Removes path tree after := by
  unfold removeAt at removed
  split at removed
  · cases removed
  · rcases Option.ite_none_right_eq_some.1 removed with ⟨empty, erased⟩
    cases erased
    refine ⟨rfl, ?_⟩
    rintro other nonempty rfl
    by_contra present
    have member : other ∈ tree.keys := by
      rw [Std.ExtTreeMap.mem_keys, Std.ExtTreeMap.mem_iff_isSome_getElem?,
        Option.isSome_iff_ne_none]
      exact present
    have alone := List.all_eq_true.1 empty other member
    have isPrefix : other.dropLast.isPrefixOf other = true :=
      List.isPrefixOf_iff_prefix.2 (List.dropLast_prefix other)
    rw [isPrefix, Bool.not_true, Bool.false_or, decide_eq_true_iff] at alone
    have shorter := congrArg List.length alone
    rw [List.length_dropLast] at shorter
    have := List.length_pos_of_ne_nil nonempty
    omega
  · next node notDir found =>
      cases removed
      refine ⟨rfl, ?_⟩
      rintro other nonempty rfl
      by_contra present
      rw [rooted other nonempty present] at found
      cases found
      exact notDir rfl

theorem Removes.of_getElem?
    (removes : Removes path tree after) {entry : Entry}
    (found : after[other]? = some entry) : tree[other]? = some entry := by
  rw [removes.erased, getElem?_erase_entry] at found
  split at found
  · cases found
  · exact found

theorem Rooted.of_removes
    (rooted : Rooted tree) (removes : Removes path tree after) :
    Rooted after := by
  intro other nonempty present
  rcases Option.ne_none_iff_exists'.1 present with ⟨entry, found⟩
  have before := removes.of_getElem? found
  have elsewhere : path ≠ other.dropLast := by
    rintro rfl
    rw [removes.childless other nonempty rfl] at before
    cases before
  have kept : after[other.dropLast]? = tree[other.dropLast]? := by
    rw [removes.erased, getElem?_erase_entry, if_neg elsewhere]
  rw [nodeAt_congr kept]
  apply rooted other nonempty
  rw [before]
  exact Option.some_ne_none entry

end

/-! ## The turns of a build -/

/-- What a build that is here, or has ended so, may have put in the overlay. -/
def Phase.leaves : Phase → Bool
  | .staging _ => true
  | .mkosi => true
  | .removing => true
  | .ended .gaveUp => true
  | .ended .killed => true
  | .ended .orphaned => true
  | _ => false

inductive Turns (checkout : Checkout) (id : Nat) (build : Build) :
    Outcome → Prop
  | lock (here : build.phase = .waiting) (free : checkout.lock = none) :
      Turns checkout id build
        { tree := checkout.tree, lock := some id, phase := .clearing }
  | stop (here : build.phase = .waiting) (ending : Ending) :
      Turns checkout id build
        { tree := checkout.tree, lock := checkout.lock, phase := .ended ending }
  | clear (here : build.phase = .clearing) (path : Path) (after : Tree)
      (removed : removeAt checkout.tree path = some after) :
      Turns checkout id build
        { tree := after, lock := checkout.lock, phase := .clearing }
  | remove (here : build.phase = .removing) (path : Path) (after : Tree)
      (removed : removeAt checkout.tree path = some after) :
      Turns checkout id build
        { tree := after, lock := checkout.lock, phase := .removing }
  | prepare (op : Op) (todo : List Op)
      (here : build.phase = .preparing (op :: todo)) (after : Tree)
      (performed : perform checkout.tree (.build id) op = some after) :
      Turns checkout id build
        { tree := after, lock := checkout.lock, phase := .preparing todo }
  | stage (op : Op) (todo : List Op)
      (here : build.phase = .staging (op :: todo)) (after : Tree)
      (performed : perform checkout.tree (.build id) op = some after) :
      Turns checkout id build
        { tree := after, lock := checkout.lock, phase := .staging todo }
  | attempt (op : Op) (todo : List Op)
      (here :
        build.phase = .preparing (op :: todo) ∨
          build.phase = .staging (op :: todo))
      (after : Tree)
      (attempted : Writes (.build id) op.path checkout.tree after) :
      Turns checkout id build
        { tree := after, lock := checkout.lock, phase := build.phase }
  | cleared (here : build.phase = .clearing)
      (absent : checkout.tree[[syncInputDir]]? = none) :
      Turns checkout id build
        { tree := checkout.tree
          lock := checkout.lock
          phase := .preparing (writeSyncInputs build.args.syncInputs) }
  | prepared (here : build.phase = .preparing []) :
      Turns checkout id build
        { tree := checkout.tree
          lock := checkout.lock
          phase := .staging (stageOverlay build.args) }
  | staged (here : build.phase = .staging []) :
      Turns checkout id build
        { tree := checkout.tree, lock := checkout.lock, phase := .mkosi }
  | drop (here : build.phase = .mkosi ∨ ∃ todo, build.phase = .staging todo) :
      Turns checkout id build
        { tree := checkout.tree, lock := checkout.lock, phase := .removing }
  | removed (here : build.phase = .removing)
      (absent : checkout.tree[([] : Path)]? = none) :
      Turns checkout id build
        { tree := checkout.tree, lock := none, phase := .ended .clean }
  | leave (running : build.phase.isRunning = true) (ending : Ending)
      (leaves :
        Phase.leaves build.phase = true → Phase.leaves (.ended ending) = true) :
      Turns checkout id build
        { tree := checkout.tree, lock := none, phase := .ended ending }
  | hook (here : build.phase = .mkosi ∨ build.phase = .ended .orphaned)
      (op : Op) (apart : isSyncPath op.path = false) (after : Tree)
      (performed : perform checkout.tree (.hook id) op = some after) :
      Turns checkout id build
        { tree := after, lock := checkout.lock, phase := build.phase }

section

variable {checkout : Checkout} {id : Nat} {build : Build} {outcome : Outcome}

theorem turns_of_stepNext
    (stepped : stepNext checkout build = some outcome) :
    Turns checkout id build outcome := by
  unfold stepNext at stepped
  split at stepped
  · next here =>
      rcases Option.ite_none_right_eq_some.1 stepped with ⟨absent, ⟨⟩⟩
      exact .cleared here absent
  · next here =>
      cases stepped
      exact .prepared here
  · next here =>
      cases stepped
      exact .staged here
  · next here =>
      cases stepped
      exact .drop (.inl here)
  · next here =>
      rcases Option.ite_none_right_eq_some.1 stepped with ⟨absent, ⟨⟩⟩
      exact .removed here absent
  · cases stepped

theorem turns_of_stepFail
    (stepped : stepFail checkout build = some outcome) :
    Turns checkout id build outcome := by
  unfold stepFail at stepped
  split at stepped
  · next here =>
      cases stepped
      exact .stop here .failed
  · next here =>
      cases stepped
      refine .leave (by rw [here]; rfl) .failed ?_
      rw [here]
      exact fun leaves => leaves
  · next todo here =>
      cases stepped
      refine .leave (by rw [here]; rfl) .failed ?_
      rw [here]
      exact fun leaves => leaves
  · next todo here =>
      cases stepped
      exact .drop (.inr ⟨todo, here⟩)
  · next here =>
      cases stepped
      exact .drop (.inl here)
  · next here =>
      cases stepped
      exact .leave (by rw [here]; rfl) .gaveUp fun _ => rfl
  · cases stepped

theorem turns_of_stepKill
    (stepped : stepKill checkout build = some outcome) :
    Turns checkout id build outcome := by
  unfold stepKill at stepped
  split at stepped
  · next here =>
      cases stepped
      exact .leave (by rw [here]; rfl) .orphaned fun _ => rfl
  · next here =>
      cases stepped
      exact .leave (by rw [here]; rfl) .killed fun _ => rfl
  · next here =>
      cases stepped
      exact .leave (by rw [here]; rfl) .killed fun _ => rfl
  · next here =>
      cases stepped
      exact .leave (by rw [here]; rfl) .killed fun _ => rfl
  · next here =>
      cases stepped
      exact .leave (by rw [here]; rfl) .killed fun _ => rfl
  · cases stepped

/-- Whatever a build does is one of its turns. -/
theorem turns_of_stepBuild
    {move : Move} (stepped : stepBuild checkout id build move = some outcome) :
    Turns checkout id build outcome := by
  cases move with
  | lock =>
      unfold stepBuild lockCheckout at stepped
      dsimp only at stepped
      split at stepped
      · next here =>
          split at stepped
          · next free =>
              cases stepped
              exact .lock here free
          · next holder held =>
              cases stepped
              rw [← held]
              exact .stop here .refused
      · cases stepped
  | remove path =>
      unfold stepBuild stepRemove at stepped
      dsimp only at stepped
      split at stepped
      · next here =>
          rcases Option.ite_none_right_eq_some.1 stepped with ⟨-, mapped⟩
          rcases Option.map_eq_some_iff.1 mapped with ⟨after, removed, rfl⟩
          exact .clear here path after removed
      · next here =>
          rcases Option.ite_none_right_eq_some.1 stepped with ⟨-, mapped⟩
          rcases Option.map_eq_some_iff.1 mapped with ⟨after, removed, rfl⟩
          exact .remove here path after removed
      · cases stepped
  | perform =>
      unfold stepBuild stepPerform at stepped
      dsimp only at stepped
      split at stepped
      · next op todo here =>
          rcases Option.map_eq_some_iff.1 stepped with ⟨after, performed, rfl⟩
          exact .prepare op todo here after performed
      · next op todo here =>
          rcases Option.map_eq_some_iff.1 stepped with ⟨after, performed, rfl⟩
          exact .stage op todo here after performed
      · cases stepped
  | attempt content =>
      unfold stepBuild stepAttempt at stepped
      dsimp only at stepped
      split at stepped
      · next op todo here =>
          rcases Option.map_eq_some_iff.1 stepped with ⟨after, attempted, rfl⟩
          exact .attempt op todo (.inl here) after (writes_of_attempt attempted)
      · next op todo here =>
          rcases Option.map_eq_some_iff.1 stepped with ⟨after, attempted, rfl⟩
          exact .attempt op todo (.inr here) after (writes_of_attempt attempted)
      · cases stepped
  | next => exact turns_of_stepNext stepped
  | fail => exact turns_of_stepFail stepped
  | hook op =>
      unfold stepBuild stepHook at stepped
      dsimp only at stepped
      split at stepped
      · next here =>
          rcases Option.ite_none_left_eq_some.1 stepped with ⟨apart, mapped⟩
          rcases Option.map_eq_some_iff.1 mapped with ⟨after, performed, rfl⟩
          exact .hook (.inl here) op (Bool.eq_false_iff.2 apart) after performed
      · next here =>
          rcases Option.ite_none_left_eq_some.1 stepped with ⟨apart, mapped⟩
          rcases Option.map_eq_some_iff.1 mapped with ⟨after, performed, rfl⟩
          exact .hook (.inr here) op (Bool.eq_false_iff.2 apart) after performed
      · cases stepped
  | kill => exact turns_of_stepKill stepped

end

end Confos.Image.OverlaySteps
