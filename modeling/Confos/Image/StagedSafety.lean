import Confos.Image.StagedSteps

/-!
# What no build touches

No step of any build, killed or not, writes or removes anything of a profile
that was in the checkout before: the sweep takes marked directories only, and
what a build stages had no name in the checkout when it was checked.
-/

namespace Confos.Image.StagedSafety

open Confos.Library.Fallible
open Confos.Library.Machines
open Confos.Image.StagedProfiles
open Confos.Image.StagedSteps

/-! ## Trees -/

theorem getElem?_insert_path
    (tree : Tree) (path other : Path) (node : Node) :
    (tree.insert path node)[other]? =
      if path = other then some node else tree[other]? := by
  rw [Std.ExtTreeMap.getElem?_insert]
  simp only [Std.compare_eq_iff_eq]

theorem getElem?_erase_path (tree : Tree) (path other : Path) :
    (tree.erase path)[other]? =
      if path = other then none else tree[other]? := by
  rw [Std.ExtTreeMap.getElem?_erase]
  simp only [Std.compare_eq_iff_eq]

theorem mem_keys_iff {tree : Tree} {path : Path} :
    path ∈ tree.keys ↔ tree[path]? ≠ none := by
  rw [Std.ExtTreeMap.mem_keys, Std.ExtTreeMap.mem_iff_isSome_getElem?,
    Option.isSome_iff_ne_none]

/-- What lies below a name lies in a directory. -/
structure Rooted (tree : Tree) : Prop where
  nil_absent : tree[([] : Path)]? = none
  below :
    ∀ (name : String) (rest : Path), rest ≠ [] →
      tree[name :: rest]? ≠ none → tree[[name]]? = some Node.dir

section

variable {tree after base : Tree} {name : String} {rest path : Path}

theorem Rooted.below_eq_none
    (rooted : Rooted tree) (absent : tree[[name]]? = none) :
    tree[name :: rest]? = none := by
  by_cases empty : rest = []
  · rw [empty]
    exact absent
  · by_contra present
    rw [rooted.below name rest empty present] at absent
    cases absent

theorem Rooted.insert_dir (rooted : Rooted tree) (name : String) :
    Rooted (tree.insert [name] .dir) where
  nil_absent := by
    rw [getElem?_insert_path, if_neg (by simp)]
    exact rooted.nil_absent
  below := by
    intro other rest nonempty present
    rw [getElem?_insert_path] at present ⊢
    rw [if_neg (by simp [Ne.symm nonempty])] at present
    split
    · rfl
    · exact rooted.below other rest nonempty present

theorem Rooted.insert_below
    (rooted : Rooted tree) (standing : tree[[name]]? = some .dir)
    (nonempty : rest ≠ []) (node : Node) :
    Rooted (tree.insert (name :: rest) node) where
  nil_absent := by
    rw [getElem?_insert_path, if_neg (by simp)]
    exact rooted.nil_absent
  below := by
    intro other below belowNonempty present
    rw [getElem?_insert_path, if_neg (by simp [nonempty])]
    rw [getElem?_insert_path] at present
    split at present
    · rename_i same
      cases same
      exact standing
    · exact rooted.below other below belowNonempty present

theorem Rooted.erase
    (rooted : Rooted tree)
    (childless :
      ∀ below : Path, below ≠ [] → path = [name] →
        tree[name :: below]? = none)
    (head : path.head? = some name) :
    Rooted (tree.erase path) where
  nil_absent := by
    rw [getElem?_erase_path]
    split
    · rfl
    · exact rooted.nil_absent
  below := by
    intro other below nonempty present
    rw [getElem?_erase_path] at present
    split at present
    · exact absurd rfl present
    · rw [getElem?_erase_path]
      have kept : path ≠ [other] := by
        rintro rfl
        cases head
        exact present (childless below nonempty rfl)
      rw [if_neg kept]
      exact rooted.below other below nonempty present

/-- What one operation of a recursive removal did. -/
theorem removeUnder_eq_some
    (rooted : Rooted tree) (removed : removeUnder tree name path = some after) :
    path.head? = some name ∧ after = tree.erase path ∧
      ∀ below : Path, below ≠ [] → path = [name] →
        tree[name :: below]? = none := by
  rw [removeUnder] at removed
  split at removed
  · rename_i head
    split at removed
    · cases removed
    · rcases Option.ite_none_right_eq_some.1 removed with ⟨empty, erased⟩
      cases erased
      refine ⟨head, rfl, ?_⟩
      rintro below nonempty rfl
      by_contra present
      have child := List.all_eq_true.1 empty _ (mem_keys_iff.2 present)
      simp [nonempty] at child
    · rename_i node notDir found
      cases removed
      refine ⟨head, rfl, ?_⟩
      rintro below nonempty rfl
      by_contra present
      rw [rooted.below name below nonempty present] at found
      cases found
      exact notDir rfl
  · cases removed

/-! ## The profiles in the checkout -/

/-- The tree agrees with another one on everything the other one has. -/
def KeepsInTree (base tree : Tree) : Prop :=
  ∀ name : String, base[[name]]? ≠ none → ∀ rest : Path,
    tree[name :: rest]? = base[name :: rest]?

theorem KeepsInTree.insert
    (keeps : KeepsInTree base tree) (own : base[[name]]? = none)
    (node : Node) :
    KeepsInTree base (tree.insert (name :: rest) node) := by
  intro other inTree below
  have different : name :: rest ≠ other :: below := by
    intro same
    rw [(List.cons.inj same).1] at own
    exact inTree own
  rw [getElem?_insert_path, if_neg different]
  exact keeps other inTree below

theorem KeepsInTree.erase
    (keeps : KeepsInTree base tree) (own : base[[name]]? = none)
    (head : path.head? = some name) :
    KeepsInTree base (tree.erase path) := by
  intro other inTree below
  have different : path ≠ other :: below := by
    rintro rfl
    cases head
    exact inTree own
  rw [getElem?_erase_path, if_neg different]
  exact keeps other inTree below

theorem KeepsInTree.own_of_absent
    (keeps : KeepsInTree base tree) (absent : tree[[name]]? = none) :
    base[[name]]? = none := by
  by_contra inTree
  rw [keeps name inTree []] at absent
  exact inTree absent

end

/-! ## The checks -/

/-- Accepted directories have names of their own that nothing has taken. -/
theorem checkProfileDirs_eq_ok
    {tree : Tree} {dirs : List ProfileDir} {names : List String}
    (accepted : checkProfileDirs tree dirs = .ok names) :
    names = dirs.map (·.name) ∧ (dirs.map (·.name)).Nodup ∧
      ∀ dir ∈ dirs, tree[[dir.name]]? = none := by
  refine
    foldlM_invariant
      (fun consumed names =>
        names = consumed.map (·.name) ∧ (consumed.map (·.name)).Nodup ∧
          ∀ dir ∈ consumed, tree[[dir.name]]? = none)
      ⟨rfl, List.nodup_nil, fun _ impossible => nomatch impossible⟩ ?_
      accepted
  rintro consumed dir validated after ⟨rfl, nodup, absent⟩ checked
  rw [checkProfileDir] at checked
  split at checked
  · cases checked
  · split at checked
    · cases checked
    · split at checked
      · cases checked
      · rename_i fresh
        split at checked
        · cases checked
        · rename_i free
          cases contained : dir.selfContained with
          | error message =>
              rw [contained] at checked
              cases checked
          | ok checks =>
              rw [contained] at checked
              cases checked
              refine ⟨by simp, ?_, ?_⟩
              · rw [List.map_append]
                exact
                  List.nodup_append'.2
                    ⟨nodup, List.nodup_singleton _,
                      List.disjoint_singleton.2 fresh⟩
              · intro other member
                rcases List.mem_append.1 member with earlier | last
                · exact absent other earlier
                · rw [List.mem_singleton.1 last]
                  exact not_not.1 free

/-! ## Safety -/

/-- The names that a phase writes below or removes. -/
def ownNames : Phase → List String
  | .sweepRemoving name _ => [name]
  | .creating dir rest guards => guards ++ (dir :: rest).map (·.name)
  | .marking dir rest guards => guards ++ (dir :: rest).map (·.name)
  | .copying dir _ rest guards => guards ++ (dir :: rest).map (·.name)
  | .staged guards => guards
  | .dropping guards => guards
  | .dropRemoving name guards => name :: guards
  | _ => []

/-- What a phase works on is there, and only the profile's entries are copied. -/
def Standing (tree : Tree) : Phase → Prop
  | .sweepRemoving name _ => tree[[name]]? ≠ none
  | .dropRemoving name _ => tree[[name]]? ≠ none
  | .marking dir _ _ => tree[[dir.name]]? = some .dir
  | .copying dir pending _ _ =>
      tree[[dir.name]]? = some .dir ∧ ∀ entry ∈ pending, entry ∈ dir.entries
  | _ => True

/-- A profile of the checkout carries no marker. -/
def Unmarked (base : Tree) : Prop :=
  ∀ name : String, base[[name, stagedProfileMarker]]? = none

/-- What holds in every run. -/
structure Safe (base : Tree) (checkout : Checkout) : Prop where
  rooted : Rooted checkout.tree
  inTree : KeepsInTree base checkout.tree
  own : ∀ name ∈ ownNames checkout.phase, base[[name]]? = none
  standing : Standing checkout.tree checkout.phase

section

variable {base : Tree} {checkout after : Checkout}

/-- Removing below a name of its own. -/
theorem Safe.removeUnder
    (safe : Safe base checkout) {name : String} {path : Path} {tree : Tree}
    (own : name ∈ ownNames checkout.phase)
    (removed : removeUnder checkout.tree name path = some tree) :
    Rooted tree ∧ KeepsInTree base tree := by
  rcases removeUnder_eq_some safe.rooted removed with ⟨head, rfl, childless⟩
  exact
    ⟨safe.rooted.erase childless head,
      safe.inTree.erase (safe.own name own) head⟩

theorem Safe.present_of_removeUnder
    (safe : Safe base checkout) {name : String} {path : Path} {tree : Tree}
    (removed : StagedProfiles.removeUnder checkout.tree name path = some tree)
    (below : path ≠ [name]) (present : checkout.tree[[name]]? ≠ none) :
    tree[[name]]? ≠ none := by
  rcases removeUnder_eq_some safe.rooted removed with ⟨-, rfl, -⟩
  rw [getElem?_erase_path, if_neg below]
  exact present

theorem mem_of_pendingAt
    {tree : Tree} {name : String} {pending : List (Path × Node)}
    {path : Path} {node : Node}
    (found : pendingAt tree name pending path = some node) :
    (path, node) ∈ pending ∧ tree[(name :: path).dropLast]? = some .dir := by
  rcases Option.ite_none_right_eq_some.1 found with ⟨parent, looked⟩
  rcases List.lookup_eq_some_iff.1 looked with ⟨before, rest, rfl, -⟩
  exact ⟨by simp, parent⟩

/-- A write below the directory that is being copied. -/
theorem Safe.writeBelow
    (safe : Safe base checkout) {dir : ProfileDir}
    {pending : List (Path × Node)} {rest : List ProfileDir}
    {guards : List String}
    (phase : checkout.phase = .copying dir pending rest guards)
    {path : Path} (nonempty : path ≠ []) (node : Node)
    (kept : List (Path × Node)) (sublist : ∀ entry ∈ kept, entry ∈ pending)
    (problem : Option Problem) :
    Safe base
      { checkout with
        tree := checkout.tree.insert (dir.name :: path) node
        phase := .copying dir kept rest guards
        problem } := by
  have own := safe.own
  have standing := safe.standing
  rw [phase] at own standing
  refine
    ⟨safe.rooted.insert_below standing.1 nonempty node,
      safe.inTree.insert (own dir.name (by simp [ownNames])) node, own, ?_,
      fun entry member => standing.2 entry (sublist entry member)⟩
  rw [getElem?_insert_path, if_neg (by simp [nonempty])]
  exact standing.1

theorem Safe.eraseBelow
    (safe : Safe base checkout) {dir : ProfileDir}
    {pending : List (Path × Node)} {rest : List ProfileDir}
    {guards : List String}
    (phase : checkout.phase = .copying dir pending rest guards)
    {path : Path} (nonempty : path ≠ []) :
    Safe base
      { checkout with
        tree := checkout.tree.erase (dir.name :: path) } := by
  have own := safe.own
  have standing := safe.standing
  rw [phase] at own standing
  refine
    ⟨safe.rooted.erase
        (fun _ _ same => absurd (List.cons.inj same).2 nonempty) rfl,
      safe.inTree.erase (own dir.name (by simp [ownNames])) rfl, ?_, ?_⟩
  · rw [phase]
    exact own
  · rw [phase]
    refine ⟨?_, standing.2⟩
    rw [getElem?_erase_path, if_neg (by simp [nonempty])]
    exact standing.1

theorem Safe.nonempty_of_pendingAt
    (safe : Safe base checkout) {dir : ProfileDir}
    {pending : List (Path × Node)} {rest : List ProfileDir}
    {guards : List String}
    (phase : checkout.phase = .copying dir pending rest guards)
    {path : Path} {node : Node}
    (found : pendingAt checkout.tree dir.name pending path = some node) :
    path ≠ [] := by
  have standing := safe.standing
  rw [phase] at standing
  exact
    dir.entries_nonempty _ (standing.2 _ (mem_of_pendingAt found).1)

theorem Safe.toDropping
    (safe : Safe base checkout) {guards : List String}
    (own : ∀ name ∈ guards, name ∈ ownNames checkout.phase)
    (problem : Option Problem) :
    Safe base { checkout with phase := .dropping guards, problem } :=
  ⟨safe.rooted, safe.inTree,
    fun name member => safe.own name (own name member), trivial⟩

theorem Safe.nextDir
    {tree : Tree} (rooted : Rooted tree) (inTree : KeepsInTree base tree)
    {rest : List ProfileDir} {guards : List String}
    (own : ∀ name ∈ guards ++ rest.map (·.name), base[[name]]? = none)
    (updated : Checkout) (sameTree : updated.tree = tree)
    (phase : updated.phase = StagedProfiles.nextDir rest guards) :
    Safe base updated := by
  subst sameTree
  refine ⟨rooted, inTree, ?_, ?_⟩
  · rw [phase]
    cases rest with
    | nil => simpa [StagedProfiles.nextDir, ownNames] using own
    | cons dir rest =>
        intro name member
        apply own
        simp only [StagedProfiles.nextDir, ownNames, List.mem_append,
          List.map_cons, List.mem_cons] at member ⊢
        tauto
  · rw [phase]
    cases rest <;> trivial

theorem Safe.own_of_marked
    (safe : Safe base checkout) (unmarked : Unmarked base)
    {name : String} {followsToFile : Bool}
    (marked :
      isFile followsToFile checkout.tree[[name, stagedProfileMarker]]? =
        true) :
    base[[name]]? = none := by
  by_contra inTree
  rw [safe.inTree name inTree [stagedProfileMarker], unmarked name] at marked
  cases marked

/-- No step touches what was in the checkout before the first build. -/
theorem Safe.step
    (safe : Safe base checkout) (unmarked : Unmarked base) {action : Action}
    (stepped : step checkout action = some after) :
    Safe base after := by
  have own := safe.own
  have standing := safe.standing
  cases steps_of_step stepped with
  | start phase listed =>
      exact ⟨safe.rooted, safe.inTree, by simp [ownNames], trivial⟩
  | endSweep phase =>
      exact ⟨safe.rooted, safe.inTree, by simp [ownNames], trivial⟩
  | sweep phase swept =>
      refine ⟨safe.rooted, safe.inTree, ?_, ?_⟩
      · simpa [ownNames] using safe.own_of_marked unmarked swept.2
      · rw [Standing, swept.1]
        exact Option.some_ne_none _
  | pass phase spared =>
      exact ⟨safe.rooted, safe.inTree, by simp [ownNames], trivial⟩
  | sweepBelow phase removed below =>
      have kept := safe.removeUnder (by simp [phase, ownNames]) removed
      refine ⟨kept.1, kept.2, own, ?_⟩
      rw [phase] at standing
      dsimp only
      rw [phase]
      exact safe.present_of_removeUnder removed below standing
  | endRemove phase removed =>
      have kept := safe.removeUnder (by simp [phase, ownNames]) removed
      exact ⟨kept.1, kept.2, by simp [ownNames], trivial⟩
  | refuse phase refused =>
      exact ⟨safe.rooted, safe.inTree, by simp [ownNames], trivial⟩
  | accept phase accepted =>
      refine Safe.nextDir safe.rooted safe.inTree ?_ _ rfl rfl
      have absent := (checkProfileDirs_eq_ok accepted).2.2
      simpa using
        fun dir member => safe.inTree.own_of_absent (absent dir member)
  | createRoot phase absent =>
      exact ⟨safe.rooted, safe.inTree, own, standing⟩
  | @createTarget dir rest guards phase present =>
      rw [phase] at own
      exact
        ⟨safe.rooted.insert_dir dir.name,
          safe.inTree.insert (own dir.name (by simp [ownNames])) _, own,
          by simp [Standing]⟩
  | @mark dir rest guards phase =>
      rw [phase] at own standing
      refine
        ⟨safe.rooted.insert_below standing (by simp) _,
          safe.inTree.insert (own dir.name (by simp [ownNames])) _, own,
          ?_, fun entry member => member⟩
      rw [getElem?_insert_path, if_neg (by simp)]
      exact standing
  | @copyPart path content whole mode dir pending rest guards phase waiting
      replaces =>
      have written :=
        safe.writeBelow phase (safe.nonempty_of_pendingAt phase waiting)
          (.file content mode) pending (fun _ member => member)
          checkout.problem
      rw [← phase] at written
      exact written
  | unlinkOld phase waiting present noDir =>
      exact safe.eraseBelow phase (safe.nonempty_of_pendingAt phase waiting)
  | copyEntry phase waiting replaces =>
      exact
        safe.writeBelow phase (safe.nonempty_of_pendingAt phase waiting) _ _
          (fun entry member => (List.mem_filter.1 member).1) _
  | copyFails phase waiting present taken noLink =>
      apply safe.toDropping
      rw [phase]
      intro name member
      exact List.mem_append_left _ member
  | endCopy phase =>
      rw [phase] at own
      refine Safe.nextDir safe.rooted safe.inTree ?_ _ rfl rfl
      intro name member
      apply own
      simp only [ownNames, List.mem_append, List.map_cons,
        List.mem_cons] at member ⊢
      tauto
  | finish phase =>
      apply safe.toDropping
      rw [phase]
      exact fun name member => member
  | endDrop phase =>
      exact ⟨safe.rooted, safe.inTree, by simp [ownNames], trivial⟩
  | dropAbsent phase absent =>
      rw [phase] at own
      exact
        ⟨safe.rooted, safe.inTree,
          fun other member => own other (List.mem_cons_of_mem _ member),
          trivial⟩
  | dropPresent phase present =>
      rw [phase] at own
      exact ⟨safe.rooted, safe.inTree, own, present⟩
  | dropBelow phase removed below =>
      have kept := safe.removeUnder (by simp [phase, ownNames]) removed
      refine ⟨kept.1, kept.2, own, ?_⟩
      rw [phase] at standing
      dsimp only
      rw [phase]
      exact safe.present_of_removeUnder removed below standing
  | dropped phase removed =>
      have kept := safe.removeUnder (by simp [phase, ownNames]) removed
      rw [phase] at own
      exact
        ⟨kept.1, kept.2,
          fun other member => own other (List.mem_cons_of_mem _ member),
          trivial⟩
  | kill running =>
      exact ⟨safe.rooted, safe.inTree, by simp [ownNames], trivial⟩

end

end Confos.Image.StagedSafety
