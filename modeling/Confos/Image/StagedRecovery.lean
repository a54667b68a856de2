import Confos.Image.StagedSafety

/-!
# Recovery of staged profiles

What an interrupted build leaves behind is swept by the next one as long as
every directory it made carries its marker when it is killed; then the checks
see the clean checkout, and what is staged is the profile's tree and the
marker.  A build that is killed while a directory it made is unmarked leaves
one that no later build removes and that the same arguments collide with.
-/

namespace Confos.Image.StagedRecovery

open Confos.Library.Machines
open Confos.Image.StagedProfiles
open Confos.Image.StagedSteps
open Confos.Image.StagedSafety

/-! ## Residue -/

/-- A name that the builds put there. -/
def Residue (base tree : Tree) (name : String) : Prop :=
  base[[name]]? = none ∧ tree[[name]]? ≠ none

def Marked (tree : Tree) (name : String) : Prop :=
  ∃ content mode,
    tree[[name, stagedProfileMarker]]? = some (.file content mode)

/-- Everything that the builds put there carries its marker. -/
def AllMarked (base tree : Tree) : Prop :=
  ∀ name, Residue base tree name → Marked tree name

section

variable {base tree : Tree}

theorem Marked.isFile {name : String} (marked : Marked tree name)
    (followsToFile : Bool) :
    isFile followsToFile tree[[name, stagedProfileMarker]]? = true := by
  rcases marked with ⟨content, mode, present⟩
  rw [present]
  rfl

theorem Marked.dir {name : String} (marked : Marked tree name)
    (rooted : Rooted tree) :
    tree[[name]]? = some .dir := by
  rcases marked with ⟨content, mode, present⟩
  apply rooted.below name [stagedProfileMarker] (by simp)
  simp [present]

/-- Without residue the checkout is the one before the first build. -/
theorem tree_eq_base
    (baseRooted : Rooted base) (rooted : Rooted tree)
    (inTree : KeepsInTree base tree)
    (clean : ∀ name, ¬ Residue base tree name) :
    tree = base := by
  apply Std.ExtTreeMap.ext_getElem?
  intro path
  cases path with
  | nil => rw [rooted.nil_absent, baseRooted.nil_absent]
  | cons name rest =>
      by_cases present : base[[name]]? = none
      · have absent : tree[[name]]? = none := by
          by_contra residue
          exact clean name ⟨present, residue⟩
        rw [rooted.below_eq_none absent, baseRooted.below_eq_none present]
      · exact inTree name present rest

theorem Residue.of_erase
    {name : String} {path : Path}
    (residue : Residue base (tree.erase path) name) :
    Residue base tree name ∧ path ≠ [name] := by
  rcases residue with ⟨own, present⟩
  rw [getElem?_erase_path] at present
  split at present
  · exact absurd rfl present
  · rename_i kept
    exact ⟨⟨own, present⟩, kept⟩

theorem Residue.of_insert
    {name : String} {path : Path} {node : Node}
    (residue : Residue base (tree.insert path node) name) :
    path = [name] ∨ Residue base tree name := by
  rcases residue with ⟨own, present⟩
  rw [getElem?_insert_path] at present
  split at present
  · rename_i same
    exact Or.inl same
  · exact Or.inr ⟨own, present⟩

theorem Marked.erase
    {name other : String} {path : Path} (marked : Marked tree name)
    (head : path.head? = some other) (different : name ≠ other) :
    Marked (tree.erase path) name := by
  rcases marked with ⟨content, mode, present⟩
  refine ⟨content, mode, ?_⟩
  rw [getElem?_erase_path, if_neg]
  · exact present
  · rintro rfl
    cases head
    exact different rfl

end

/-! ## What is staged -/

/-- What a staged copy holds: the tree of the profile, and the marker. -/
def stagedNode (dir : ProfileDir) (rest : Path) : Option Node :=
  if rest = [] then
    some .dir
  else
    match dir.entries.lookup rest with
    | some node => some node
    | none =>
        if rest = [stagedProfileMarker] then some markerFile else none

def StagedAs (tree : Tree) (dir : ProfileDir) : Prop :=
  ∀ rest : Path, tree[dir.name :: rest]? = stagedNode dir rest

theorem lookup_of_mem
    {dir : ProfileDir} {path : Path} {node : Node}
    (member : (path, node) ∈ dir.entries) :
    dir.entries.lookup path = some node := by
  have nodup := dir.entries_nodup
  generalize dir.entries = entries at member nodup ⊢
  induction entries with
  | nil => cases member
  | cons entry entries induction =>
      rcases List.mem_cons.1 member with same | later
      · rw [← same]
        exact List.lookup_cons_self
      · rw [List.map_cons, List.nodup_cons] at nodup
        have different : (path == entry.1) = false := by
          apply beq_eq_false_iff_ne.2
          rintro rfl
          exact nodup.1 (List.mem_map.2 ⟨_, later, rfl⟩)
        rw [List.lookup_cons, different]
        exact induction later nodup.2

theorem stagedNode_of_mem
    {dir : ProfileDir} {path : Path} {node : Node}
    (member : (path, node) ∈ dir.entries) :
    stagedNode dir path = some node := by
  rw [stagedNode, if_neg (dir.entries_nonempty _ member),
    lookup_of_mem member]

/-- A copy in progress: what is not pending is there, the rest is not. -/
structure HalfCopied (tree : Tree) (dir : ProfileDir)
    (pending : List (Path × Node)) : Prop where
  copied :
    ∀ rest : Path, rest ∉ pending.map (·.1) →
      tree[dir.name :: rest]? = stagedNode dir rest
  waiting :
    ∀ rest node, (rest, node) ∈ pending →
      tree[dir.name :: rest]? = none ∨
        ∃ content mode,
          tree[dir.name :: rest]? = some (.file content mode) ∧
            (rest = [stagedProfileMarker] ∨ ∃ whole bits, node = .file whole bits)

/-! ## The phases of a build -/

/-- How much of the arguments is staged. -/
structure Progress (checkout : Checkout) (done rest : List ProfileDir) :
    Prop where
  arguments_eq : checkout.arguments = done ++ rest
  names_nodup : ((done ++ rest).map (·.name)).Nodup
  staged : ∀ dir ∈ done, StagedAs checkout.tree dir

/-- What every phase leaves for the phases behind it, and for a later sweep. -/
def Recoverable (base : Tree) (checkout : Checkout) : Prop :=
  let residue := Residue base checkout.tree
  match checkout.phase with
  | .idle => AllMarked base checkout.tree
  | .sweeping todo =>
      ∀ name, residue name → Marked checkout.tree name ∧ name ∈ todo
  | .sweepRemoving name todo =>
      ∀ other, residue other → other = name ∨
        (Marked checkout.tree other ∧ other ∈ todo)
  | .checking => ∀ name, ¬ residue name
  | .creating dir rest guards =>
      ∃ done, Progress checkout done (dir :: rest) ∧
        guards = done.map (·.name) ++ [dir.name] ∧
          ∀ name, residue name → name ∈ done.map (·.name)
  | .marking dir rest guards =>
      ∃ done, Progress checkout done (dir :: rest) ∧
        guards = done.map (·.name) ++ [dir.name] ∧
          (∀ name, residue name → name ∈ guards) ∧
            ∀ below : Path, below ≠ [] →
              checkout.tree[dir.name :: below]? = none
  | .copying dir pending rest guards =>
      ∃ done, Progress checkout done (dir :: rest) ∧
        guards = done.map (·.name) ++ [dir.name] ∧
          (∀ name, residue name → name ∈ guards) ∧
            HalfCopied checkout.tree dir pending
  | .staged guards =>
      Progress checkout checkout.arguments [] ∧
        guards = checkout.arguments.map (·.name) ∧
          ∀ name, residue name → name ∈ guards
  | .dropping guards => ∀ name, residue name → name ∈ guards
  | .dropRemoving name guards =>
      ∀ other, residue other → other = name ∨ other ∈ guards

/-- A build fails for reasons that a clean checkout gives it as well. -/
structure Honest (base : Tree) (checkout : Checkout) : Prop where
  refused :
    ∀ message, checkout.problem = some (.refused message) →
      checkProfileDirs base checkout.arguments = .error message
  copyFailed :
    ∀ path, checkout.problem = some (.copyFailed path) →
      ∃ dir ∈ checkout.arguments,
        path = [dir.name, stagedProfileMarker] ∧
          ([stagedProfileMarker], Node.dir) ∈ dir.entries

section

variable {base : Tree} {checkout after : Checkout}

/-! ## The sweep -/

theorem mem_rootNames_iff {tree : Tree} {name : String} :
    name ∈ rootNames tree ↔ tree[[name]]? ≠ none := by
  rw [← mem_keys_iff, rootNames, List.mem_filterMap]
  constructor
  · rintro ⟨path, member, isName⟩
    split at isName
    · cases isName
      exact member
    · cases isName
  · intro member
    exact ⟨[name], member, rfl⟩

theorem Recoverable.sweep
    (recoverable : Recoverable base checkout)
    {name : String} {todo : List String}
    (phase : checkout.phase = .sweeping (name :: todo)) :
    Recoverable base
      { checkout with phase := .sweepRemoving name todo } := by
  rw [Recoverable, phase] at recoverable
  intro other residue
  rcases recoverable other residue with ⟨marked, listed⟩
  rcases List.mem_cons.1 listed with same | later
  · exact Or.inl same
  · exact Or.inr ⟨marked, later⟩

/-- What the sweep passes over is no residue. -/
theorem Recoverable.pass
    (recoverable : Recoverable base checkout) (safe : Safe base checkout)
    {followsToFile : Bool} {name : String} {todo : List String}
    (phase : checkout.phase = .sweeping (name :: todo))
    (spared :
      ¬ (checkout.tree[[name]]? = some .dir ∧
        isFile followsToFile checkout.tree[[name, stagedProfileMarker]]? =
          true)) :
    Recoverable base { checkout with phase := .sweeping todo } := by
  rw [Recoverable, phase] at recoverable
  intro other residue
  rcases recoverable other residue with ⟨marked, listed⟩
  rcases List.mem_cons.1 listed with same | later
  · rw [same] at marked
    exact absurd ⟨marked.dir safe.rooted, marked.isFile _⟩ spared
  · exact ⟨marked, later⟩

theorem Recoverable.sweepBelow
    (recoverable : Recoverable base checkout) (safe : Safe base checkout)
    {name : String} {todo : List String} {path : Path} {tree : Tree}
    (phase : checkout.phase = .sweepRemoving name todo)
    (removed : removeUnder checkout.tree name path = some tree) :
    Recoverable base { checkout with tree } := by
  rcases removeUnder_eq_some safe.rooted removed with ⟨head, rfl, -⟩
  rw [Recoverable, phase] at recoverable
  rw [Recoverable]
  dsimp only
  rw [phase]
  intro other residue
  rcases residue.of_erase with ⟨before, -⟩
  by_cases same : other = name
  · exact Or.inl same
  · rcases recoverable other before with same' | ⟨marked, listed⟩
    · exact Or.inl same'
    · exact Or.inr ⟨marked.erase head same, listed⟩

theorem Recoverable.endRemove
    (recoverable : Recoverable base checkout) (safe : Safe base checkout)
    {name : String} {todo : List String} {tree : Tree}
    (phase : checkout.phase = .sweepRemoving name todo)
    (removed : removeUnder checkout.tree name [name] = some tree) :
    Recoverable base { checkout with tree, phase := .sweeping todo } := by
  rcases removeUnder_eq_some safe.rooted removed with ⟨head, rfl, -⟩
  rw [Recoverable, phase] at recoverable
  intro other residue
  rcases residue.of_erase with ⟨before, kept⟩
  have different : other ≠ name := by
    rintro rfl
    exact kept rfl
  rcases recoverable other before with same | ⟨marked, listed⟩
  · exact absurd same different
  · exact ⟨marked.erase head different, listed⟩

theorem Recoverable.dropBelow
    (recoverable : Recoverable base checkout) (safe : Safe base checkout)
    {name : String} {guards : List String} {path : Path} {tree : Tree}
    (phase : checkout.phase = .dropRemoving name guards)
    (removed : removeUnder checkout.tree name path = some tree) :
    Recoverable base { checkout with tree } := by
  rcases removeUnder_eq_some safe.rooted removed with ⟨-, rfl, -⟩
  rw [Recoverable, phase] at recoverable
  rw [Recoverable]
  dsimp only
  rw [phase]
  intro other residue
  exact recoverable other residue.of_erase.1

theorem Recoverable.dropped
    (recoverable : Recoverable base checkout) (safe : Safe base checkout)
    {name : String} {guards : List String} {tree : Tree}
    (phase : checkout.phase = .dropRemoving name guards)
    (removed : removeUnder checkout.tree name [name] = some tree) :
    Recoverable base { checkout with tree, phase := .dropping guards } := by
  rcases removeUnder_eq_some safe.rooted removed with ⟨-, rfl, -⟩
  rw [Recoverable, phase] at recoverable
  intro other residue
  rcases residue.of_erase with ⟨before, kept⟩
  rcases recoverable other before with rfl | listed
  · exact absurd rfl kept
  · exact listed

/-! ## The copies -/

theorem Progress.of_agree
    {done rest : List ProfileDir} (progress : Progress checkout done rest)
    (sameArguments : after.arguments = checkout.arguments)
    (agree :
      ∀ dir ∈ done, ∀ below : Path,
        after.tree[dir.name :: below]? = checkout.tree[dir.name :: below]?) :
    Progress after done rest where
  arguments_eq := sameArguments.trans progress.arguments_eq
  names_nodup := progress.names_nodup
  staged := by
    intro dir member below
    rw [agree dir member below]
    exact progress.staged dir member below

theorem Progress.name_ne
    {done rest : List ProfileDir} {current : ProfileDir}
    (progress : Progress checkout done (current :: rest))
    {dir : ProfileDir} (member : dir ∈ done) :
    dir.name ≠ current.name := by
  have nodup := progress.names_nodup
  rw [List.map_append, List.map_cons] at nodup
  intro same
  have fresh := (List.nodup_append'.1 nodup).2.2
  exact
    fresh (List.mem_map_of_mem member) (same ▸ List.mem_cons_self)

theorem Progress.insert
    {done rest : List ProfileDir} {current : ProfileDir}
    (progress : Progress checkout done (current :: rest))
    {below : Path} {node : Node} (phase : Phase) (problem : Option Problem) :
    Progress
      { checkout with
        tree := checkout.tree.insert (current.name :: below) node
        phase, problem }
      done (current :: rest) := by
  refine progress.of_agree rfl ?_
  intro dir member other
  rw [getElem?_insert_path, if_neg]
  intro same
  exact progress.name_ne member (List.cons.inj same).1.symm

theorem Progress.erase
    {done rest : List ProfileDir} {current : ProfileDir}
    (progress : Progress checkout done (current :: rest)) (below : Path)
    (phase : Phase) :
    Progress
      { checkout with
        tree := checkout.tree.erase (current.name :: below), phase }
      done (current :: rest) := by
  refine progress.of_agree rfl ?_
  intro dir member other
  rw [getElem?_erase_path, if_neg]
  intro same
  exact progress.name_ne member (List.cons.inj same).1.symm

section

variable {tree : Tree} {dir : ProfileDir} {pending : List (Path × Node)}
    {path : Path}

theorem HalfCopied.of_entries
    (standing : tree[[dir.name]]? = some .dir)
    (empty : ∀ below : Path, below ≠ [] → tree[dir.name :: below]? = none) :
    HalfCopied
      (tree.insert [dir.name, stagedProfileMarker] markerFile) dir
      dir.entries where
  copied := by
    intro rest absent
    have looked : dir.entries.lookup rest = none := by
      rw [List.lookup_eq_none_iff]
      intro entry member
      apply bne_iff_ne.2
      rintro rfl
      exact absent (List.mem_map_of_mem member)
    rw [getElem?_insert_path, stagedNode, looked]
    by_cases root : rest = []
    · rw [if_neg (by simp [root]), if_pos root, root]
      exact standing
    · rw [if_neg root]
      by_cases marker : rest = [stagedProfileMarker]
      · rw [if_pos (by rw [marker])]
        exact (if_pos marker).symm
      · rw [if_neg, empty rest root]
        · exact (if_neg marker).symm
        · intro same
          exact marker (List.cons.inj same).2.symm
  waiting := by
    intro rest node member
    rw [getElem?_insert_path]
    split
    · rename_i same
      exact Or.inr ⟨_, _, rfl, Or.inl (List.cons.inj same).2.symm⟩
    · exact Or.inl (empty rest (dir.entries_nonempty _ member))

theorem HalfCopied.copyEntry
    (half : HalfCopied tree dir pending) {node : Node}
    (member : (path, node) ∈ pending)
    (inside : ∀ entry ∈ pending, entry ∈ dir.entries) :
    HalfCopied (tree.insert (dir.name :: path) node) dir
      (pending.filter (·.1 ≠ path)) where
  copied := by
    intro rest absent
    rw [getElem?_insert_path]
    split
    · rename_i same
      rw [← (List.cons.inj same).2]
      exact (stagedNode_of_mem (inside _ member)).symm
    · rename_i different
      apply half.copied
      intro listed
      rcases List.mem_map.1 listed with ⟨entry, isPending, rfl⟩
      apply absent
      apply List.mem_map_of_mem
      apply List.mem_filter.2
      refine ⟨isPending, ?_⟩
      have other : entry.1 ≠ path := by
        intro same
        exact different (by rw [same])
      simpa using other
  waiting := by
    intro rest other isPending
    rcases List.mem_filter.1 isPending with ⟨before, different⟩
    have different : rest ≠ path := by
      simpa using different
    rw [getElem?_insert_path, if_neg]
    · exact half.waiting rest other before
    · intro same
      exact different (List.cons.inj same).2.symm

theorem HalfCopied.change
    (half : HalfCopied tree dir pending) {changed : Tree}
    (others :
      ∀ rest : Path, rest ≠ path →
        changed[dir.name :: rest]? = tree[dir.name :: rest]?)
    (listed : path ∈ pending.map (·.1))
    (waiting :
      ∀ node, (path, node) ∈ pending →
        changed[dir.name :: path]? = none ∨
          ∃ content mode,
            changed[dir.name :: path]? = some (.file content mode) ∧
              (path = [stagedProfileMarker] ∨
                ∃ whole bits, node = .file whole bits)) :
    HalfCopied changed dir pending where
  copied := by
    intro rest absent
    have different : rest ≠ path := by
      rintro rfl
      exact absent listed
    rw [others rest different]
    exact half.copied rest absent
  waiting := by
    intro rest node isPending
    by_cases same : rest = path
    · subst same
      exact waiting node isPending
    · rw [others rest same]
      exact half.waiting rest node isPending

end

theorem Recoverable.nextDir
    {done rest : List ProfileDir} {guards : List String}
    (progress : Progress checkout done rest)
    (guarded : guards = done.map (·.name))
    (clean : ∀ name, Residue base checkout.tree name → name ∈ guards)
    (phase : checkout.phase = StagedProfiles.nextDir rest guards) :
    Recoverable base checkout := by
  rw [Recoverable, phase]
  cases rest with
  | nil =>
      have all : checkout.arguments = done := by
        rw [progress.arguments_eq, List.append_nil]
      refine ⟨all ▸ progress, ?_, clean⟩
      rw [all]
      exact guarded
  | cons dir rest =>
      refine ⟨done, progress, ?_, guarded ▸ clean⟩
      rw [guarded]

theorem Recoverable.accept
    (recoverable : Recoverable base checkout) {names : List String}
    (phase : checkout.phase = .checking)
    (accepted :
      checkProfileDirs checkout.tree checkout.arguments = .ok names) :
    Recoverable base
      { checkout with
        phase := StagedProfiles.nextDir checkout.arguments [] } := by
  rw [Recoverable, phase] at recoverable
  refine @Recoverable.nextDir base _ [] checkout.arguments [] ?_ rfl ?_ rfl
  · exact
      ⟨rfl, (checkProfileDirs_eq_ok accepted).2.1, List.forall_mem_nil _⟩
  · intro name residue
    exact absurd residue (recoverable name)

theorem Recoverable.createRoot
    (recoverable : Recoverable base checkout)
    {dir : ProfileDir} {rest : List ProfileDir} {guards : List String}
    (phase : checkout.phase = .creating dir rest guards) :
    Recoverable base { checkout with rootExists := true } := by
  rw [Recoverable, phase] at recoverable ⊢
  rcases recoverable with ⟨done, progress, others⟩
  exact ⟨done, progress.of_agree rfl (fun _ _ _ => rfl), others⟩

theorem Recoverable.createTarget
    (recoverable : Recoverable base checkout) (safe : Safe base checkout)
    {dir : ProfileDir} {rest : List ProfileDir} {guards : List String}
    (phase : checkout.phase = .creating dir rest guards) :
    Recoverable base
      { checkout with
        tree := checkout.tree.insert [dir.name] .dir
        phase := .marking dir rest guards } := by
  have own := safe.own
  rw [phase] at own
  rw [Recoverable, phase] at recoverable
  rcases recoverable with ⟨done, progress, guarded, clean⟩
  refine ⟨done, progress.insert _ _, guarded, ?_, ?_⟩
  · intro name residue
    rw [guarded]
    rcases residue.of_insert with same | before
    · rw [← (List.cons.inj same).1]
      simp
    · exact List.mem_append_left _ (clean name before)
  · intro below nonempty
    have absent : checkout.tree[[dir.name]]? = none := by
      by_contra present
      rcases List.mem_map.1
          (clean dir.name ⟨own dir.name (by simp [ownNames]), present⟩) with
        ⟨other, member, same⟩
      exact progress.name_ne member same
    rw [getElem?_insert_path, if_neg (by simp [Ne.symm nonempty])]
    exact safe.rooted.below_eq_none absent

theorem Recoverable.mark
    (recoverable : Recoverable base checkout) (safe : Safe base checkout)
    {dir : ProfileDir} {rest : List ProfileDir} {guards : List String}
    (phase : checkout.phase = .marking dir rest guards) :
    Recoverable base
      { checkout with
        tree :=
          checkout.tree.insert [dir.name, stagedProfileMarker] markerFile
        phase := .copying dir dir.entries rest guards } := by
  have standing := safe.standing
  rw [phase] at standing
  rw [Recoverable, phase] at recoverable
  rcases recoverable with ⟨done, progress, guarded, clean, empty⟩
  refine
    ⟨done, progress.insert _ _, guarded, ?_,
      HalfCopied.of_entries standing empty⟩
  intro name residue
  rcases residue.of_insert with same | before
  · cases same
  · exact clean name before

theorem Recoverable.writeBelow
    (recoverable : Recoverable base checkout)
    {dir : ProfileDir} {pending kept : List (Path × Node)}
    {rest : List ProfileDir} {guards : List String}
    (phase : checkout.phase = .copying dir pending rest guards)
    {path : Path} (nonempty : path ≠ []) {node : Node}
    (problem : Option Problem)
    (half :
      HalfCopied checkout.tree dir pending →
        HalfCopied (checkout.tree.insert (dir.name :: path) node) dir kept) :
    Recoverable base
      { checkout with
        tree := checkout.tree.insert (dir.name :: path) node
        phase := .copying dir kept rest guards
        problem } := by
  rw [Recoverable, phase] at recoverable
  rcases recoverable with ⟨done, progress, guarded, clean, before⟩
  refine ⟨done, progress.insert _ _, guarded, ?_, half before⟩
  intro name residue
  rcases residue.of_insert with same | earlier
  · exact absurd (List.cons.inj same).2 nonempty
  · exact clean name earlier

/-- A copy over what is there fails at a directory over the marker only. -/
theorem canReplace_of_waiting
    {node : Node} {path : Path} {present : Option Node}
    (waiting :
      present = none ∨
        ∃ content mode,
          present = some (.file content mode) ∧
            (path = [stagedProfileMarker] ∨
              ∃ whole bits, node = .file whole bits)) :
    node.canReplace present = true ∨
      ∃ content mode,
        present = some (.file content mode) ∧
          path = [stagedProfileMarker] ∧
            (node = .dir ∨ ∃ target, node = .link target) := by
  rcases waiting with rfl | ⟨content, mode, rfl, marker⟩
  · left
    cases node <;> rfl
  · cases node with
    | dir =>
        rcases marker with marker | ⟨whole, bits, impossible⟩
        · exact Or.inr ⟨content, mode, rfl, marker, Or.inl rfl⟩
        · cases impossible
    | file whole bits => exact Or.inl rfl
    | link target =>
        rcases marker with marker | ⟨whole, bits, impossible⟩
        · exact Or.inr ⟨content, mode, rfl, marker, Or.inr ⟨target, rfl⟩⟩
        · cases impossible

theorem Recoverable.copyEntry
    (recoverable : Recoverable base checkout) (safe : Safe base checkout)
    {path : Path} {node : Node} {dir : ProfileDir}
    {pending : List (Path × Node)} {rest : List ProfileDir}
    {guards : List String}
    (phase : checkout.phase = .copying dir pending rest guards)
    (waiting : pendingAt checkout.tree dir.name pending path = some node) :
    Recoverable base
      { checkout with
        tree := checkout.tree.insert (dir.name :: path) node
        phase := .copying dir (pending.filter (·.1 ≠ path)) rest guards } := by
  have standing := safe.standing
  rw [phase] at standing
  exact
    recoverable.writeBelow phase (safe.nonempty_of_pendingAt phase waiting) _
      fun half => half.copyEntry (mem_of_pendingAt waiting).1 standing.2

/-- A copy that fails leaves what the guards remove, and no other error. -/
theorem Recoverable.copyFails
    (recoverable : Recoverable base checkout) (safe : Safe base checkout)
    {path : Path} {node old : Node} {dir : ProfileDir}
    {pending : List (Path × Node)} {rest : List ProfileDir}
    {guards : List String}
    (phase : checkout.phase = .copying dir pending rest guards)
    (waiting : pendingAt checkout.tree dir.name pending path = some node)
    (present : checkout.tree[dir.name :: path]? = some old)
    (taken : node.canReplace (some old) = false)
    (noLink : ∀ target, node = .link target → old = .dir) :
    (∀ name, Residue base checkout.tree name → name ∈ guards) ∧
      ∃ other ∈ checkout.arguments,
        dir.name :: path = [other.name, stagedProfileMarker] ∧
          ([stagedProfileMarker], Node.dir) ∈ other.entries := by
  have standing := safe.standing
  rw [phase] at standing
  have member := (mem_of_pendingAt waiting).1
  rw [Recoverable, phase] at recoverable
  rcases recoverable with ⟨done, progress, guarded, clean, half⟩
  refine ⟨clean, dir, ?_, ?_⟩
  · rw [progress.arguments_eq]
    simp
  · rcases canReplace_of_waiting (half.waiting path node member) with
      replaced | ⟨content, mode, isFile, marker, kind⟩
    · rw [present, taken] at replaced
      cases replaced
    · rcases kind with rfl | ⟨target, rfl⟩
      · exact ⟨by rw [marker], marker ▸ standing.2 _ member⟩
      · rw [noLink target rfl, isFile] at present
        cases present

theorem Recoverable.copyPart
    (recoverable : Recoverable base checkout) (safe : Safe base checkout)
    {path : Path} {content whole : Library.ByteStrings.Bytes} {mode : Nat}
    {dir : ProfileDir} {pending : List (Path × Node)}
    {rest : List ProfileDir} {guards : List String}
    (phase : checkout.phase = .copying dir pending rest guards)
    (waiting :
      pendingAt checkout.tree dir.name pending path =
        some (.file whole mode)) :
    Recoverable base
      { checkout with
        tree :=
          checkout.tree.insert (dir.name :: path) (.file content mode) } := by
  have standing := safe.standing
  rw [phase] at standing
  have member := (mem_of_pendingAt waiting).1
  have stillHalf (half : HalfCopied checkout.tree dir pending) :
      HalfCopied
        (checkout.tree.insert (dir.name :: path) (.file content mode))
        dir pending := by
    refine half.change ?_ (List.mem_map_of_mem member) ?_
    · intro rest different
      rw [getElem?_insert_path, if_neg]
      intro same
      exact different (List.cons.inj same).2.symm
    · intro node isPending
      have same : node = .file whole mode := by
        have first := lookup_of_mem (standing.2 _ member)
        have second := lookup_of_mem (standing.2 _ isPending)
        exact Option.some_inj.1 (second.symm.trans first)
      rw [getElem?_insert_path, if_pos rfl]
      exact Or.inr ⟨content, mode, rfl, Or.inr ⟨whole, mode, same⟩⟩
  have still :=
    recoverable.writeBelow phase
      (safe.nonempty_of_pendingAt phase waiting) checkout.problem stillHalf
  rw [← phase] at still
  exact still

theorem Recoverable.eraseBelow
    (recoverable : Recoverable base checkout)
    {dir : ProfileDir} {pending : List (Path × Node)}
    {rest : List ProfileDir} {guards : List String}
    (phase : checkout.phase = .copying dir pending rest guards)
    {path : Path} (listed : path ∈ pending.map (·.1)) :
    Recoverable base
      { checkout with
        tree := checkout.tree.erase (dir.name :: path) } := by
  rw [Recoverable, phase] at recoverable
  rcases recoverable with ⟨done, progress, guarded, clean, half⟩
  rw [Recoverable]
  dsimp only
  rw [phase]
  refine ⟨done, progress.erase path _, guarded, ?_, ?_⟩
  · intro name residue
    exact clean name residue.of_erase.1
  · refine half.change ?_ listed ?_
    · intro rest different
      rw [getElem?_erase_path, if_neg]
      intro same
      exact different (List.cons.inj same).2.symm
    · intro node isPending
      left
      rw [getElem?_erase_path, if_pos rfl]

theorem Recoverable.endCopy
    (recoverable : Recoverable base checkout)
    {dir : ProfileDir} {rest : List ProfileDir} {guards : List String}
    (phase : checkout.phase = .copying dir [] rest guards)
    (profiles : List String) :
    Recoverable base
      { checkout with
        profiles, phase := StagedProfiles.nextDir rest guards } := by
  rw [Recoverable, phase] at recoverable
  rcases recoverable with ⟨done, progress, guarded, clean, half⟩
  refine
    @Recoverable.nextDir base _ (done ++ [dir]) rest guards ?_ ?_ clean rfl
  · refine ⟨?_, ?_, ?_⟩
    · simpa using progress.arguments_eq
    · simpa using progress.names_nodup
    · intro other member
      rcases List.mem_append.1 member with earlier | last
      · exact progress.staged other earlier
      · rw [List.mem_singleton.1 last]
        intro below
        exact half.copied below (by simp)
  · rw [guarded]
    simp

/-! ## Every step -/

/-- What holds in a run whose kills find everything marked. -/
structure Careful (base : Tree) (checkout : Checkout) : Prop where
  safe : Safe base checkout
  recoverable : Recoverable base checkout
  honest : Honest base checkout

theorem Careful.step
    (careful : Careful base checkout) (baseRooted : Rooted base)
    (unmarked : Unmarked base) {action : Action}
    (killed : action = .kill → AllMarked base checkout.tree)
    (stepped : step checkout action = some after) :
    Careful base after := by
  have safe := careful.safe.step unmarked stepped
  have recoverable := careful.recoverable
  have honest := careful.honest
  suffices both : Recoverable base after ∧ Honest base after from
    ⟨safe, both.1, both.2⟩
  clear safe
  cases steps_of_step stepped with
  | start phase listed =>
      rw [Recoverable, phase] at recoverable
      refine ⟨?_, ?_, ?_⟩
      · intro name residue
        exact
          ⟨recoverable name residue,
            listed.mem_iff.2 (mem_rootNames_iff.2 residue.2)⟩
      · rintro _ ⟨⟩
      · rintro _ ⟨⟩
  | endSweep phase =>
      refine ⟨?_, honest.refused, honest.copyFailed⟩
      rw [Recoverable, phase] at recoverable
      intro name residue
      cases (recoverable name residue).2
  | sweep phase swept =>
      exact ⟨recoverable.sweep phase, honest.refused, honest.copyFailed⟩
  | pass phase spared =>
      exact
        ⟨recoverable.pass careful.safe phase spared, honest.refused,
          honest.copyFailed⟩
  | sweepBelow phase removed below =>
      exact
        ⟨recoverable.sweepBelow careful.safe phase removed, honest.refused,
          honest.copyFailed⟩
  | endRemove phase removed =>
      exact
        ⟨recoverable.endRemove careful.safe phase removed, honest.refused,
          honest.copyFailed⟩
  | refuse phase refused =>
      rw [Recoverable, phase] at recoverable
      refine ⟨?_, ?_, ?_⟩
      · intro name residue
        exact absurd residue (recoverable name)
      · intro other same
        cases same
        rw [← tree_eq_base baseRooted careful.safe.rooted
          careful.safe.inTree recoverable]
        exact refused
      · rintro _ ⟨⟩
  | accept phase accepted =>
      exact
        ⟨recoverable.accept phase accepted, honest.refused,
          honest.copyFailed⟩
  | createRoot phase absent =>
      exact ⟨recoverable.createRoot phase, honest.refused, honest.copyFailed⟩
  | createTarget phase present =>
      exact
        ⟨recoverable.createTarget careful.safe phase, honest.refused,
          honest.copyFailed⟩
  | mark phase =>
      exact
        ⟨recoverable.mark careful.safe phase, honest.refused,
          honest.copyFailed⟩
  | copyPart phase waiting replaces =>
      exact
        ⟨recoverable.copyPart careful.safe phase waiting, honest.refused,
          honest.copyFailed⟩
  | unlinkOld phase waiting present noDir =>
      exact
        ⟨recoverable.eraseBelow phase
            (List.mem_map_of_mem (mem_of_pendingAt waiting).1),
          honest.refused, honest.copyFailed⟩
  | copyEntry phase waiting replaces =>
      exact
        ⟨recoverable.copyEntry careful.safe phase waiting, honest.refused,
          honest.copyFailed⟩
  | copyFails phase waiting present taken noLink =>
      rcases
          recoverable.copyFails careful.safe phase waiting present taken
            noLink with
        ⟨clean, overMarker⟩
      refine ⟨clean, ?_, ?_⟩
      · rintro _ ⟨⟩
      · rintro _ ⟨⟩
        exact overMarker
  | endCopy phase =>
      exact
        ⟨recoverable.endCopy phase _, honest.refused, honest.copyFailed⟩
  | finish phase =>
      rw [Recoverable, phase] at recoverable
      exact ⟨recoverable.2.2, honest.refused, honest.copyFailed⟩
  | endDrop phase =>
      rw [Recoverable, phase] at recoverable
      refine ⟨?_, honest.refused, honest.copyFailed⟩
      intro name residue
      cases recoverable name residue
  | dropAbsent phase absent =>
      rw [Recoverable, phase] at recoverable
      refine ⟨?_, honest.refused, honest.copyFailed⟩
      intro other residue
      rcases List.mem_cons.1 (recoverable other residue) with rfl | later
      · exact absurd absent residue.2
      · exact later
  | dropPresent phase present =>
      rw [Recoverable, phase] at recoverable
      refine ⟨?_, honest.refused, honest.copyFailed⟩
      intro other residue
      exact List.mem_cons.1 (recoverable other residue)
  | dropBelow phase removed below =>
      exact
        ⟨recoverable.dropBelow careful.safe phase removed, honest.refused,
          honest.copyFailed⟩
  | dropped phase removed =>
      exact
        ⟨recoverable.dropped careful.safe phase removed, honest.refused,
          honest.copyFailed⟩
  | kill running => exact ⟨killed rfl, honest.refused, honest.copyFailed⟩

end

end Confos.Image.StagedRecovery
