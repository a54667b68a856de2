import Confos.Library.ByteStrings
import Mathlib.Data.List.Dedup
import Mathlib.Data.List.Infix

/-!
# File trees with symbolic links

A tree lists what is at each path from the root directory.  Names are followed
through symbolic links, as many as the system allows; an entry is named
without following its last one.  Where nothing is added, a path can stop
leading somewhere, but never leads anywhere else.
-/

namespace Confos.Library.FileTrees

open Confos.Library.ByteStrings

abbrev Name := String

/-- The names that lead from the root directory. -/
abbrev Path := List Name

inductive Node where
  | file (content : Bytes)
  | folder
  | link (absolute : Bool) (target : List Name)
  /-- A device, a socket or a pipe. -/
  | other
deriving DecidableEq

abbrev Tree := List (Path × Node)

namespace Tree

/-! ## Following paths -/

def node (tree : Tree) (path : Path) : Option Node :=
  if path = [] then some .folder else tree.lookup path

/-- Names followed one by one from a directory; `follow` goes on behind a link. -/
def walkNames (follow : Path → List Name → Option Path) (tree : Tree) :
    Path → List Name → Option Path
  | here, [] => some here
  | here, name :: rest =>
      if name = "." then
        walkNames follow tree here rest
      else if name = ".." then
        walkNames follow tree here.dropLast rest
      else
        match tree.node (here ++ [name]) with
        | none => none
        | some .folder => walkNames follow tree (here ++ [name]) rest
        | some (.link absolute target) =>
            follow (if absolute then [] else here) (target ++ rest)
        | some _ => if rest = [] then some (here ++ [name]) else none

/-- Names followed through at most so many links. -/
def walk (tree : Tree) : Nat → Path → List Name → Option Path
  | 0 => walkNames (fun _ _ => none) tree
  | links + 1 => walkNames (walk tree links) tree

section

variable (links : Nat) (tree : Tree) (path : Path)

/-- Where a path leads. -/
def realPath : Option Path :=
  tree.walk links [] path

/-- `os.stat` -/
def stat : Option Node :=
  (tree.realPath links path).bind tree.node

/-- The entry that a path names, not followed itself. -/
def entryOf : Option Path :=
  match path.getLast? with
  | none => none
  | some name => (tree.realPath links path.dropLast).map (· ++ [name])

/-- `os.lstat` -/
def lstat : Option Node :=
  (tree.entryOf links path).bind tree.node

end

/-- A name of an entry. -/
def isName (name : Name) : Bool :=
  name ≠ "." && name ≠ ".."

/-- The entry that names lead to from a directory, the last not followed. -/
def entryFrom
    (links : Nat) (tree : Tree) (here : Path) (names : List Name) :
    Option Path :=
  match names.getLast? with
  | none => some here
  | some name =>
      if isName name then
        (tree.walk links here names.dropLast).map (· ++ [name])
      else
        tree.walk links here names

def isLink (node : Option Node) : Bool :=
  match node with
  | some (.link _ _) => true
  | _ => false

section

variable (links : Nat) (tree : Tree) (here : Path) (names : List Name)

/-- What names lead to from a directory. -/
def statFrom : Option Node :=
  (tree.walk links here names).bind tree.node

/-- The entry that names lead to from a directory. -/
def lstatFrom : Option Node :=
  (tree.entryFrom links here names).bind tree.node

end

/-- Strictly below a directory. -/
def isBelow (directory path : Path) : Bool :=
  directory.isPrefixOf path && path ≠ directory

/-- The names in a directory. -/
def names (tree : Tree) (directory : Path) : List Name :=
  ((tree.filterMap fun entry =>
    if entry.1 ≠ [] ∧ entry.1.dropLast = directory then
      entry.1.getLast?
    else
      none).filter isName).dedup

/-- `os.listdir` -/
def listdir (links : Nat) (tree : Tree) (path : Path) : Option (List Name) :=
  match tree.realPath links path with
  | none => none
  | some directory =>
      match tree.node directory with
      | some .folder => some (tree.names directory)
      | _ => none

section

variable (links : Nat) (tree : Tree) (path : Path)

/-- `Path.is_dir` -/
def isDir : Bool :=
  tree.stat links path = some .folder

/-- `Path.is_symlink` -/
def isSymlink : Bool :=
  match tree.lstat links path with
  | some (.link _ _) => true
  | _ => false

/-- The content of a regular file, through links. -/
def readBytes : Option Bytes :=
  match tree.stat links path with
  | some (.file content) => some content
  | _ => none

end

/-! ## Deleting -/

/-- What a tree has left where entries are deleted. -/
def without (tree : Tree) (deleted : Path → Bool) : Tree :=
  tree.filter fun entry => !deleted entry.1

/-- Nothing is added, and nothing that stays is changed. -/
def Shrinks (tree after : Tree) : Prop :=
  ∀ path node, after.lookup path = some node → tree.lookup path = some node

section

variable (links : Nat) (tree : Tree) (path : Path)

/-- `os.unlink` -/
def unlink : Option Tree :=
  match tree.entryOf links path with
  | none => none
  | some entry =>
      match tree.node entry with
      | none | some .folder => none
      | some _ => some (tree.without (· = entry))

/-- `shutil.rmtree`, which wants a directory and no link to one. -/
def rmtree : Option Tree :=
  match tree.entryOf links path with
  | none => none
  | some entry =>
      match tree.node entry with
      | some .folder => some (tree.without entry.isPrefixOf)
      | _ => none

end

theorem exists_of_isLink
    {node : Option Node} (link : isLink node = true) :
    ∃ absolute target, node = some (.link absolute target) := by
  cases node with
  | none => cases link
  | some node =>
      cases node with
      | link absolute target => exact ⟨absolute, target, rfl⟩
      | file content => cases link
      | folder => cases link
      | other => cases link

variable {tree after : Tree}

theorem shrinks_refl (tree : Tree) : Shrinks tree tree :=
  fun _ _ => id

theorem Shrinks.trans
    {last : Tree} (first : Shrinks tree after) (second : Shrinks after last) :
    Shrinks tree last :=
  fun path node found => first path node (second path node found)

theorem lookup_without
    (tree : Tree) (deleted : Path → Bool) (path : Path) :
    (tree.without deleted).lookup path =
      if deleted path then none else tree.lookup path := by
  induction tree with
  | nil => simp [without]
  | cons entry tree induction =>
      rw [without] at induction ⊢
      cases gone : deleted entry.1 with
      | true =>
          rw [List.filter_cons_of_neg (by simp [gone]), induction]
          split
          · rfl
          · next kept =>
              have unlike : (path == entry.1) = false := by
                rw [beq_eq_false_iff_ne]
                rintro rfl
                exact kept gone
              rw [List.lookup_cons, unlike]
      | false =>
          rw [List.filter_cons_of_pos (by simp [gone]), List.lookup_cons,
            List.lookup_cons, induction]
          by_cases found : path = entry.1
          · rw [found]
            simp [gone]
          · rw [beq_false_of_ne found]

theorem shrinks_without (tree : Tree) (deleted : Path → Bool) :
    Shrinks tree (tree.without deleted) := by
  intro path node found
  rw [lookup_without] at found
  split at found
  · cases found
  · exact found

/-! ## What shrinking keeps -/

theorem Shrinks.node
    (shrinks : Shrinks tree after) {path : Path} {node : Node}
    (found : after.node path = some node) : tree.node path = some node := by
  rw [Tree.node] at found ⊢
  by_cases root : path = []
  · rw [if_pos root] at found ⊢
    exact found
  · rw [if_neg root] at found ⊢
    exact shrinks path node found

theorem Shrinks.walkNames
    (shrinks : Shrinks tree after)
    {follow followAfter : Path → List Name → Option Path}
    (follows : ∀ here names there,
      followAfter here names = some there → follow here names = some there)
    {here there : Path} {names : List Name}
    (led : after.walkNames followAfter here names = some there) :
    tree.walkNames follow here names = some there := by
  induction names generalizing here with
  | nil => exact led
  | cons name rest induction =>
      rw [Tree.walkNames] at led ⊢
      by_cases stays : name = "."
      · rw [if_pos stays] at led ⊢
        exact induction led
      · rw [if_neg stays] at led ⊢
        by_cases up : name = ".."
        · rw [if_pos up] at led ⊢
          exact induction led
        · rw [if_neg up] at led ⊢
          cases found : after.node (here ++ [name]) with
          | none =>
              rw [found] at led
              cases led
          | some node =>
              rw [found] at led
              rw [shrinks.node found]
              cases node with
              | link absolute target => exact follows _ _ _ led
              | file content => exact led
              | folder => exact induction led
              | other => exact led

/-- A path that still leads somewhere leads where it led. -/
theorem Shrinks.walk
    (shrinks : Shrinks tree after) {links : Nat} {here there : Path}
    {names : List Name} (led : after.walk links here names = some there) :
    tree.walk links here names = some there := by
  induction links generalizing here names there with
  | zero =>
      refine shrinks.walkNames ?_ led
      intro here names there impossible
      cases impossible
  | succ links induction =>
      exact shrinks.walkNames (fun _ _ _ => induction) led

variable {links : Nat} {path : Path}

theorem Shrinks.realPath
    (shrinks : Shrinks tree after) {there : Path}
    (led : after.realPath links path = some there) :
    tree.realPath links path = some there :=
  shrinks.walk led

theorem Shrinks.stat
    (shrinks : Shrinks tree after) {node : Node}
    (found : after.stat links path = some node) :
    tree.stat links path = some node := by
  rcases Option.bind_eq_some_iff.1 found with ⟨there, led, isThere⟩
  exact
    Option.bind_eq_some_iff.2
      ⟨there, shrinks.realPath led, shrinks.node isThere⟩

theorem Shrinks.entryOf
    (shrinks : Shrinks tree after) {entry : Path}
    (named : after.entryOf links path = some entry) :
    tree.entryOf links path = some entry := by
  rw [Tree.entryOf] at named ⊢
  cases last : path.getLast? with
  | none =>
      rw [last] at named
      cases named
  | some name =>
      rw [last] at named
      rcases Option.map_eq_some_iff.1 named with ⟨parent, led, rfl⟩
      exact Option.map_eq_some_iff.2 ⟨parent, shrinks.realPath led, rfl⟩

theorem Shrinks.lstat
    (shrinks : Shrinks tree after) {node : Node}
    (found : after.lstat links path = some node) :
    tree.lstat links path = some node := by
  rcases Option.bind_eq_some_iff.1 found with ⟨entry, named, isThere⟩
  exact
    Option.bind_eq_some_iff.2
      ⟨entry, shrinks.entryOf named, shrinks.node isThere⟩

theorem mem_names_iff
    {directory : Path} {name : Name} :
    name ∈ tree.names directory ↔
      isName name = true ∧
        (tree.node (directory ++ [name])).isSome = true := by
  rw [names, List.mem_dedup, List.mem_filter, and_comm, Tree.node,
    if_neg (by simp), List.lookup_isSome_iff, List.mem_filterMap]
  refine and_congr_right fun _ => ?_
  constructor
  · rintro ⟨⟨path, node⟩, isEntry, found⟩
    split at found
    · next inside =>
        rcases List.getLast?_eq_some_iff.1 found with ⟨front, whole⟩
        refine ⟨⟨path, node⟩, isEntry, ?_⟩
        rw [whole, List.dropLast_concat] at inside
        rw [beq_iff_eq, ← inside.2, whole]
    · cases found
  · rintro ⟨⟨path, node⟩, isEntry, same⟩
    rw [beq_iff_eq] at same
    refine ⟨_, isEntry, ?_⟩
    rw [← same]
    simp

theorem Shrinks.names
    (shrinks : Shrinks tree after) {directory : Path} {name : Name}
    (inside : name ∈ after.names directory) :
    name ∈ tree.names directory := by
  rw [mem_names_iff] at inside ⊢
  rcases Option.isSome_iff_exists.1 inside.2 with ⟨node, found⟩
  rw [shrinks.node found]
  exact ⟨inside.1, rfl⟩

theorem Shrinks.listdir
    (shrinks : Shrinks tree after) {names : List Name}
    (listed : after.listdir links path = some names) :
    ∃ before, tree.listdir links path = some before ∧
      ∀ name ∈ names, name ∈ before := by
  rw [Tree.listdir] at listed ⊢
  cases led : after.realPath links path with
  | none =>
      rw [led] at listed
      cases listed
  | some directory =>
      rw [led] at listed
      rw [shrinks.realPath led]
      dsimp only at listed ⊢
      split at listed
      · next isFolder =>
          cases listed
          rw [shrinks.node isFolder]
          exact ⟨_, rfl, fun _ => shrinks.names⟩
      · cases listed

theorem Shrinks.readBytes
    (shrinks : Shrinks tree after) {content : Bytes}
    (read : after.readBytes links path = some content) :
    tree.readBytes links path = some content := by
  rw [Tree.readBytes] at read ⊢
  split at read
  · next found =>
      rw [shrinks.stat found]
      exact read
  · cases read

/-! ## Entries of a directory -/

section

variable {here : Path} {rest : List Name} {name : Name}

theorem isName_iff : isName name = true ↔ name ≠ "." ∧ name ≠ ".." := by
  simp [isName]

theorem walk_eq_walkNames (tree : Tree) (links : Nat) :
    ∃ follow, tree.walk links = tree.walkNames follow := by
  cases links with
  | zero => exact ⟨_, rfl⟩
  | succ links => exact ⟨_, rfl⟩

theorem walk_cons_dot (links : Nat) :
    tree.walk links here ("." :: rest) = tree.walk links here rest := by
  rcases walk_eq_walkNames tree links with ⟨follow, equal⟩
  rw [equal, walkNames, if_pos rfl]

theorem walk_cons_up (links : Nat) :
    tree.walk links here (".." :: rest) =
      tree.walk links here.dropLast rest := by
  rcases walk_eq_walkNames tree links with ⟨follow, equal⟩
  rw [equal, walkNames, if_neg (by decide), if_pos rfl]

theorem walk_cons_folder
    (isName : isName name = true)
    (found : tree.node (here ++ [name]) = some .folder) (links : Nat) :
    tree.walk links here (name :: rest) =
      tree.walk links (here ++ [name]) rest := by
  rw [isName_iff] at isName
  rcases walk_eq_walkNames tree links with ⟨follow, equal⟩
  rw [equal, walkNames, if_neg isName.1, if_neg isName.2, found]

theorem walk_cons_link
    {absolute : Bool} {target : List Name} (isName : isName name = true)
    (found : tree.node (here ++ [name]) = some (.link absolute target))
    (links : Nat) :
    tree.walk (links + 1) here (name :: rest) =
      tree.walk links (if absolute then [] else here) (target ++ rest) := by
  rw [isName_iff] at isName
  rw [walk, walkNames, if_neg isName.1, if_neg isName.2, found]

theorem walk_cons_none
    (isName : isName name = true)
    (found : tree.node (here ++ [name]) = none) (links : Nat) :
    tree.walk links here (name :: rest) = none := by
  rw [isName_iff] at isName
  rcases walk_eq_walkNames tree links with ⟨follow, equal⟩
  rw [equal, walkNames, if_neg isName.1, if_neg isName.2, found]

theorem walk_cons_leaf
    {node : Node} (isName : isName name = true)
    (found : tree.node (here ++ [name]) = some node)
    (notFolder : node ≠ .folder)
    (notLink : isLink (some node) = false) (links : Nat) :
    tree.walk links here (name :: rest) =
      if rest = [] then some (here ++ [name]) else none := by
  rw [isName_iff] at isName
  rcases walk_eq_walkNames tree links with ⟨follow, equal⟩
  rw [equal, walkNames, if_neg isName.1, if_neg isName.2, found]
  cases node with
  | folder => exact absurd rfl notFolder
  | link absolute target => cases notLink
  | file content => rfl
  | other => rfl

theorem walk_zero_cons_link
    {absolute : Bool} {target : List Name} (isName : isName name = true)
    (found : tree.node (here ++ [name]) = some (.link absolute target)) :
    tree.walk 0 here (name :: rest) = none := by
  rw [isName_iff] at isName
  rw [walk, walkNames, if_neg isName.1, if_neg isName.2, found]

theorem isName_of_ne (moves : name ≠ ".") (down : name ≠ "..") :
    isName name = true :=
  isName_iff.2 ⟨moves, down⟩

end

/-! ## Paths part by part -/

/-- Names that lead somewhere do so where more links are followed. -/
theorem walkNames_of_walkNames
    {follow further : Path → List Name → Option Path}
    (follows : ∀ here names there,
      follow here names = some there → further here names = some there)
    {here there : Path} {names : List Name}
    (led : tree.walkNames follow here names = some there) :
    tree.walkNames further here names = some there :=
  (shrinks_refl tree).walkNames follows led

/-- A path without links leads to the same place where links are followed. -/
theorem walk_of_walk_zero
    {here there : Path} {names : List Name}
    (led : tree.walk 0 here names = some there) (links : Nat) :
    tree.walk links here names = some there := by
  have impossible (further : Path → List Name → Option Path) :
      ∀ here names there,
        (fun _ _ => none : Path → List Name → Option Path) here names =
            some there →
          further here names = some there := by
    intro here names there never
    cases never
  cases links with
  | zero => exact led
  | succ links => exact walkNames_of_walkNames (impossible _) led

/-- A path is followed part by part. -/
theorem exists_of_walkNames_append
    {follow : Path → List Name → Option Path} {links : Nat}
    {here there : Path} {front back : List Name}
    (whole : tree.walk links = tree.walkNames follow)
    (follows : ∀ here front there,
      follow here (front ++ back) = some there →
        ∃ middle rest,
          follow here front = some middle ∧
            tree.walk rest middle back = some there)
    (led : tree.walkNames follow here (front ++ back) = some there) :
    ∃ middle rest,
      tree.walkNames follow here front = some middle ∧
        tree.walk rest middle back = some there := by
  induction front generalizing here with
  | nil => exact ⟨here, links, rfl, by rw [whole]; exact led⟩
  | cons name front induction =>
      rw [List.cons_append, walkNames] at led
      rw [walkNames]
      by_cases stays : name = "."
      · rw [if_pos stays] at led ⊢
        exact induction led
      · rw [if_neg stays] at led ⊢
        by_cases up : name = ".."
        · rw [if_pos up] at led ⊢
          exact induction led
        · rw [if_neg up] at led ⊢
          cases found : tree.node (here ++ [name]) with
          | none =>
              rw [found] at led
              cases led
          | some node =>
              rw [found] at led
              cases node with
              | link absolute target =>
                  dsimp only at led ⊢
                  rw [← List.append_assoc] at led
                  exact follows _ _ _ led
              | folder => exact induction led
              | file content =>
                  dsimp only at led ⊢
                  split at led
                  · next ended =>
                      rcases List.append_eq_nil_iff.1 ended with ⟨rfl, rfl⟩
                      exact ⟨_, links, rfl, by rw [whole]; exact led⟩
                  · cases led
              | other =>
                  dsimp only at led ⊢
                  split at led
                  · next ended =>
                      rcases List.append_eq_nil_iff.1 ended with ⟨rfl, rfl⟩
                      exact ⟨_, links, rfl, by rw [whole]; exact led⟩
                  · cases led

theorem exists_of_walk_append
    {links : Nat} {here there : Path} {front back : List Name}
    (led : tree.walk links here (front ++ back) = some there) :
    ∃ middle rest,
      tree.walk links here front = some middle ∧
        tree.walk rest middle back = some there := by
  induction links generalizing here front there with
  | zero =>
      have whole : tree.walk 0 = tree.walkNames fun _ _ => none := rfl
      refine exists_of_walkNames_append whole ?_ led
      intro here front there impossible
      cases impossible
  | succ links induction =>
      have whole : tree.walk (links + 1) = tree.walkNames (tree.walk links) :=
        rfl
      exact exists_of_walkNames_append whole (fun _ _ _ => induction) led

theorem walk_nil {here there : Path}
    (led : tree.walk links here [] = some there) : there = here := by
  cases links with
  | zero => exact (Option.some.inj led).symm
  | succ links => exact (Option.some.inj led).symm

/-- A dot at the end leads nowhere else. -/
theorem walk_of_walk_concat_dot
    {here there : Path} {names : List Name}
    (led : tree.walk links here (names ++ ["."]) = some there) :
    tree.walk links here names = some there := by
  rcases exists_of_walk_append led with ⟨middle, rest, led, ledOn⟩
  cases rest with
  | zero => exact led.trans ledOn
  | succ rest => exact led.trans ledOn

/-- The last name leads to its entry, or is one of a link. -/
theorem exists_of_walk_concat
    {here there : Path} {front : List Name} {name : Name}
    (isName : isName name = true)
    (led : tree.walk links here (front ++ [name]) = some there) :
    ∃ middle,
      tree.walk links here front = some middle ∧
        (there = middle ++ [name] ∨
          isLink (tree.node (middle ++ [name])) = true) := by
  rcases exists_of_walk_append led with ⟨middle, rest, led, ledOn⟩
  refine ⟨middle, led, ?_⟩
  rw [isName_iff] at isName
  have step :
      ∃ follow, tree.walkNames follow middle [name] = some there := by
    cases rest with
    | zero => exact ⟨_, ledOn⟩
    | succ rest => exact ⟨_, ledOn⟩
  rcases step with ⟨follow, step⟩
  rw [walkNames, if_neg isName.1, if_neg isName.2] at step
  cases seen : tree.node (middle ++ [name]) with
  | none =>
      rw [seen] at step
      cases step
  | some entry =>
      rw [seen] at step
      cases entry with
      | link absolute target => exact Or.inr rfl
      | folder => exact Or.inl (Option.some.inj step).symm
      | file content => exact Or.inl (Option.some.inj step).symm
      | other => exact Or.inl (Option.some.inj step).symm

end Tree

end Confos.Library.FileTrees
