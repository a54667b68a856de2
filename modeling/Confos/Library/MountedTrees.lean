import Confos.Library.FileTrees
import Mathlib.Data.Finset.Dedup
import Mathlib.Data.Fintype.EquivFin

/-!
# Trees inside larger ones

A tree may lie anywhere in a file system.  A path that leaves it goes on among
directories that the tree says nothing about, so for whatever names are left
there is a file system in which they lead somewhere outside.
-/

namespace Confos.Library.MountedTrees

open Confos.Library.FileTrees

/-- A tree lies at a directory of another one. -/
def Holds (outer : Tree) (root : Path) (inner : Tree) : Prop :=
  ∀ path, outer.node (root ++ path) = inner.node path

/-! ## Paths that go on -/

section

variable {tree : Tree} {here : Path} {rest : List Name} {name : Name}

theorem append_of_walk_of_follows
    {links : Nat} {place there : Path} {back : List Name}
    (isFolder : tree.node place = some .folder)
    (ledOn : tree.walk 0 place back = some there)
    (follows :
      ∀ here name rest, Tree.isName name = true →
        Tree.isLink (tree.node (here ++ [name])) = true →
          tree.walk links here (name :: rest) = some place →
            tree.walk links here (name :: (rest ++ back)) = some there)
    {here : Path} {front : List Name}
    (led : tree.walk links here front = some place) :
    tree.walk links here (front ++ back) = some there := by
  induction front generalizing here with
  | nil =>
      cases Tree.walk_nil led
      exact Tree.walk_of_walk_zero ledOn links
  | cons name front induction =>
      rw [List.cons_append]
      by_cases stays : name = "."
      · cases stays
        rw [Tree.walk_cons_dot] at led ⊢
        exact induction led
      by_cases up : name = ".."
      · cases up
        rw [Tree.walk_cons_up] at led ⊢
        exact induction led
      have isName := Tree.isName_of_ne stays up
      cases found : tree.node (here ++ [name]) with
      | none =>
          rw [Tree.walk_cons_none isName found] at led
          cases led
      | some node =>
          cases node with
          | folder =>
              rw [Tree.walk_cons_folder isName found] at led ⊢
              exact induction led
          | link absolute target =>
              exact follows here name front isName (by rw [found]; rfl) led
          | file content =>
              rw [Tree.walk_cons_leaf isName found (by simp) rfl] at led
              split at led
              · cases led
                cases found.symm.trans isFolder
              · cases led
          | other =>
              rw [Tree.walk_cons_leaf isName found (by simp) rfl] at led
              split at led
              · cases led
                cases found.symm.trans isFolder
              · cases led

/-- From a directory, names without links lead on. -/
theorem walk_append_of_walk_zero
    {links : Nat} {place there : Path} {front back : List Name}
    (led : tree.walk links here front = some place)
    (isFolder : tree.node place = some .folder)
    (ledOn : tree.walk 0 place back = some there) :
    tree.walk links here (front ++ back) = some there := by
  induction links generalizing here front with
  | zero =>
      refine append_of_walk_of_follows isFolder ledOn ?_ led
      intro here name rest isName isLink led
      rcases Tree.exists_of_isLink isLink with ⟨absolute, target, found⟩
      rw [Tree.walk_zero_cons_link isName found] at led
      cases led
  | succ links followed =>
      refine append_of_walk_of_follows isFolder ledOn ?_ led
      intro here name rest isName isLink led
      rcases Tree.exists_of_isLink isLink with ⟨absolute, target, found⟩
      rw [Tree.walk_cons_link isName found] at led ⊢
      rw [← List.append_assoc]
      exact followed led

theorem Holds.node_concat
    {outer : Tree} {root : Path} (holds : Holds outer root tree)
    (here : Path) (name : Name) :
    outer.node (root ++ here ++ [name]) = tree.node (here ++ [name]) := by
  rw [List.append_assoc]
  exact holds (here ++ [name])

end

/-! ## Names among directories -/

/-- Where names lead among directories. -/
def stride (here : Path) (name : Name) : Path :=
  if name = "." then here
  else if name = ".." then here.dropLast
  else here ++ [name]

/-- The places on the way, and where names lead in the end. -/
def places : Path → List Name → List Path
  | _, [] => []
  | here, name :: rest => stride here name :: places (stride here name) rest

theorem walkNames_of_folders
    {tree : Tree} (follow : Path → List Name → Option Path)
    {here : Path} {names : List Name}
    (folders : ∀ place ∈ places here names, tree.node place = some .folder) :
    tree.walkNames follow here names = some (names.foldl stride here) := by
  induction names generalizing here with
  | nil => rfl
  | cons name rest induction =>
      rw [places, List.forall_mem_cons] at folders
      rw [Tree.walkNames, List.foldl_cons]
      have later := induction folders.2
      rw [stride] at later folders ⊢
      by_cases stays : name = "."
      · rw [if_pos stays] at later ⊢
        rwa [if_pos stays]
      · rw [if_neg stays] at later folders ⊢
        rw [if_neg stays]
        by_cases up : name = ".."
        · rw [if_pos up] at later ⊢
          rwa [if_pos up]
        · rw [if_neg up] at later folders ⊢
          rw [if_neg up, folders.1]
          exact later

theorem mem_of_mem_stride
    {here : Path} {name part : Name} (member : part ∈ stride here name) :
    part ∈ here ∨ part = name := by
  rw [stride] at member
  split at member
  · exact Or.inl member
  · split at member
    · exact Or.inl (List.dropLast_subset _ member)
    · rcases List.mem_append.1 member with before | now
      · exact Or.inl before
      · exact Or.inr (List.mem_singleton.1 now)

theorem mem_cons_of_eq
    {part name : Name} {rest : List Name} (same : part = name) :
    part ∈ name :: rest := by
  rw [same]
  exact List.mem_cons_self

/-- The places are made of the names that lead there. -/
theorem mem_of_mem_places
    {here place : Path} {names : List Name} {part : Name}
    (visited : place ∈ places here names) (member : part ∈ place) :
    part ∈ here ∨ part ∈ names := by
  induction names generalizing here with
  | nil => cases visited
  | cons name rest induction =>
      rw [places] at visited
      have step {part : Name} (inside : part ∈ stride here name) :
          part ∈ here ∨ part ∈ name :: rest :=
        (mem_of_mem_stride inside).imp_right mem_cons_of_eq
      rcases List.mem_cons.1 visited with rfl | later
      · exact step member
      · rcases induction later with before | among
        · exact step before
        · exact Or.inr (List.mem_cons_of_mem _ among)

theorem mem_of_mem_foldl_stride
    {here : Path} {names : List Name} {part : Name}
    (member : part ∈ names.foldl stride here) :
    part ∈ here ∨ part ∈ names := by
  induction names generalizing here with
  | nil => exact Or.inl member
  | cons name rest induction =>
      rcases induction member with before | among
      · exact (mem_of_mem_stride before).imp_right mem_cons_of_eq
      · exact Or.inr (List.mem_cons_of_mem _ among)

/-! ## A file system around a tree -/

/-- A tree below a name of the root directory, and other directories. -/
def mount (root : Name) (inner : Tree) (others : List Path) : Tree :=
  ([root], .folder) ::
    (inner.map (fun item => (root :: item.1, item.2)) ++
      others.map fun place => (place, .folder))

section

variable {root : Name} {inner : Tree} {others : List Path}

theorem lookup_map_cons (path : Path) :
    (inner.map fun item : Path × Node => (root :: item.1, item.2)).lookup
        (root :: path) =
      inner.lookup path := by
  induction inner with
  | nil => rfl
  | cons item inner induction =>
      rw [List.map_cons, List.lookup_cons, List.lookup_cons, induction]
      have same : (root :: path == root :: item.1) = (path == item.1) := by
        rw [Bool.eq_iff_iff, beq_iff_eq, beq_iff_eq, List.cons.injEq,
          eq_self, true_and]
      rw [same]

theorem lookup_map_cons_of_ne
    {place : Path} (other : place.head? ≠ some root) :
    (inner.map fun item : Path × Node => (root :: item.1, item.2)).lookup
        place =
      none := by
  rw [List.lookup_eq_none_iff]
  rintro ⟨path, node⟩ member
  rcases List.mem_map.1 member with ⟨item, -, same⟩
  cases same
  rw [bne_iff_ne]
  rintro rfl
  exact other rfl

theorem lookup_folders
    {place : Path} :
    (others.map fun place => (place, Node.folder)).lookup place =
      if place ∈ others then some .folder else none := by
  induction others with
  | nil => rfl
  | cons other others induction =>
      rw [List.map_cons, List.lookup_cons, induction]
      by_cases same : place = other
      · rw [same, beq_self_eq_true]
        simp
      · rw [beq_false_of_ne same]
        simp [same]

/-- The tree lies at its name if no other directory does. -/
theorem holds_mount
    (apart : ∀ place ∈ others, root ∉ place) :
    Holds (mount root inner others) [root] inner := by
  intro path
  cases path with
  | nil =>
      rw [List.append_nil, FileTrees.Tree.node, FileTrees.Tree.node,
        if_neg (by simp), if_pos rfl, mount, List.lookup_cons,
        beq_self_eq_true]
  | cons name path =>
      have elsewhere : root :: name :: path ∉ others := fun member =>
        apart _ member List.mem_cons_self
      rw [List.singleton_append, FileTrees.Tree.node, FileTrees.Tree.node,
        if_neg (by simp), if_neg (by simp), mount, List.lookup_cons,
        beq_false_of_ne (by simp), List.lookup_append, lookup_map_cons,
        lookup_folders, if_neg elsewhere, Option.or_none]

theorem node_mount_of_mem
    (apart : ∀ place ∈ others, root ∉ place) {place : Path}
    (member : place ∈ others) :
    (mount root inner others).node place = some .folder := by
  have notRoot : place.head? ≠ some root := fun first =>
    apart place member (List.mem_of_head? first)
  rw [FileTrees.Tree.node]
  split
  · rfl
  · have other : (place == [root]) = false := by
      rw [beq_eq_false_iff_ne]
      rintro rfl
      exact notRoot rfl
    rw [mount, List.lookup_cons, other, List.lookup_append,
      lookup_map_cons_of_ne notRoot, lookup_folders, if_pos member,
      Option.none_or]

end

/-- Around every tree, names from the root directory may lead outside it. -/
theorem exists_holds_walk (inner : Tree) (names : List Name) :
    ∃ outer root place,
      Holds outer [root] inner ∧ ¬ [root] <+: place ∧
        ∀ links, outer.walk links [] names = some place := by
  rcases Infinite.exists_notMem_finset names.toFinset with ⟨root, fresh⟩
  rw [List.mem_toFinset] at fresh
  have apart : ∀ place ∈ places [] names, root ∉ place := by
    intro place visited member
    rcases mem_of_mem_places visited member with impossible | among
    · cases impossible
    · exact fresh among
  refine
    ⟨mount root inner (places [] names), root, names.foldl stride [],
      holds_mount apart, ?_, ?_⟩
  · rintro ⟨rest, within⟩
    have member : root ∈ names.foldl stride [] := by
      rw [← within]
      exact List.mem_cons_self
    rcases mem_of_mem_foldl_stride member with impossible | among
    · cases impossible
    · exact fresh among
  · intro links
    rcases Tree.walk_eq_walkNames (mount root inner (places [] names)) links with
      ⟨follow, equal⟩
    rw [equal]
    exact
      walkNames_of_folders follow fun place member =>
        node_mount_of_mem apart member

end Confos.Library.MountedTrees
