import Confos.Library.Fallible
import Confos.Library.MountedTrees
import Mathlib.Logic.Relation

/-!
# Symbolic links of staged profiles

A profile from outside the checkout is copied below `mkosi.profiles/`, so its
links must not lead out of it.  The check counts the names of a target as
directories, one deeper each.  A name that is a link itself may lead anywhere
in the profile, and what follows it in the target climbs from there.
-/

namespace Confos.Image.ProfileLinks

open Confos.Library
open Confos.Library.FileTrees
open Confos.Library.MountedTrees

/-! ## The check -/

def imageRelativeSubtrees : List Name := ["mkosi.extra", "mkosi.skeleton"]

def mkosiConfD : Name := "mkosi.conf.d"

/-- Whether names climb above the directory this many levels up. -/
def climbsAbove : Nat → List Name → Bool
  | _, [] => false
  | depth, name :: rest =>
      if name = "." then
        climbsAbove depth rest
      else if name = ".." then
        match depth with
        | 0 => true
        | depth + 1 => climbsAbove depth rest
      else
        climbsAbove (depth + 1) rest

def escapesRoot
    (relParent : Path) (absolute : Bool) (target : List Name) : Bool :=
  absolute || climbsAbove relParent.length target

def showPath (path : List Name) : String :=
  "/".intercalate path

def showTarget (absolute : Bool) (target : List Name) : String :=
  if absolute then "/" ++ showPath target else showPath target

section

variable (profileDir : String) (tree : Tree)

/-- The recursion of `reject_escaping_symlinks`; the tree bounds its depth. -/
def walkProfile : Nat → Path → Bool → Bool → Except String Unit
  | 0, _, _, _ => .ok ()
  | depth + 1, rel, atExtrasRoot, inDropinContainer =>
      (tree.names rel).forM fun name =>
        if atExtrasRoot && imageRelativeSubtrees.contains name then
          if Tree.isLink (tree.node (rel ++ [name])) then
            .error s!"--profile-dir {profileDir}: {name} must be a real directory, not a symlink"
          else
            .ok ()
        else
          match tree.node (rel ++ [name]) with
          | some (.link absolute target) =>
              if escapesRoot rel absolute target then
                .error s!"--profile-dir {profileDir} contains symlink {showPath (rel ++ [name])} -> {showTarget absolute target}, which points outside the profile; a profile dir must be self-contained because staging re-parents it under mkosi.profiles/"
              else
                .ok ()
          | some .folder =>
              walkProfile depth (rel ++ [name]) inDropinContainer
                (atExtrasRoot && name = mkosiConfD)
          | _ => .ok ()

/-- The length of the longest path. -/
def height : Nat :=
  (tree.map (·.1.length)).foldr max 0

def rejectEscapingSymlinks : Except String Unit :=
  walkProfile profileDir tree (height tree + 1) [] true false

end

/-! ## The links that are checked -/

/-- Below one of the exempt subtrees, or one of them; the flags are those of
the directory that the names start from. -/
def isExemptFrom : Bool → Bool → Path → Bool
  | _, _, [] => false
  | atExtrasRoot, inDropinContainer, name :: rest =>
      atExtrasRoot && imageRelativeSubtrees.contains name ||
        isExemptFrom inDropinContainer (atExtrasRoot && name = mkosiConfD) rest

def isExempt (path : Path) : Bool :=
  isExemptFrom true false path

/-- A symbolic link outside the exempt subtrees. -/
structure IsProfileLink
    (tree : Tree) (parent : Path) (name : Name) (absolute : Bool)
    (target : List Name) : Prop where
  isName : ∀ part ∈ parent ++ [name], Tree.isName part = true
  directories : ∀ front, front <+: parent → tree.node front = some .folder
  isLink : tree.node (parent ++ [name]) = some (.link absolute target)
  notExempt : isExempt (parent ++ [name]) = false

/-- Wherever the tree lies, no link of it leads out of it. -/
def Contained (tree : Tree) : Prop :=
  ∀ (outer : Tree) (root : Path), Holds outer root tree →
    ∀ parent name absolute target,
      IsProfileLink tree parent name absolute target →
        ∀ links place,
          outer.walk links (root ++ parent) [name] = some place →
            root <+: place

/-! ## Following a link inside the tree -/

/-- Names to follow from a place; of each, whether the check counts it from
where it is really followed from. -/
structure Visit where
  here : Path
  pending : List (Name × Bool)

def Visit.names (visit : Visit) : List Name :=
  visit.pending.map (·.1)

def counted (names : List Name) : List (Name × Bool) :=
  names.map fun name => (name, true)

def uncounted (names : List Name) : List (Name × Bool) :=
  names.map fun name => (name, false)

/-- The names of a checked link's target are counted, until one is a link. -/
def taggedTarget (link : Path) (target : List Name) : List (Name × Bool) :=
  if isExempt link then uncounted target else counted target

inductive Step (tree : Tree) : Visit → Visit → Prop where
  | dot {here : Path} {tag : Bool} {rest : List (Name × Bool)} :
      Step tree ⟨here, (".", tag) :: rest⟩ ⟨here, rest⟩
  | up {here : Path} {tag : Bool} {rest : List (Name × Bool)}
      (below : here ≠ []) :
      Step tree ⟨here, ("..", tag) :: rest⟩ ⟨here.dropLast, rest⟩
  | down {here : Path} {name : Name} {tag : Bool} {rest : List (Name × Bool)}
      (isName : Tree.isName name = true)
      (found : tree.node (here ++ [name]) = some .folder) :
      Step tree ⟨here, (name, tag) :: rest⟩ ⟨here ++ [name], rest⟩
  | follow {here : Path} {name : Name} {tag : Bool}
      {rest : List (Name × Bool)} {target : List Name}
      (isName : Tree.isName name = true)
      (found : tree.node (here ++ [name]) = some (.link false target)) :
      Step tree ⟨here, (name, tag) :: rest⟩
        ⟨here,
          taggedTarget (here ++ [name]) target ++
            uncounted (rest.map (·.1))⟩

/-- What is met in following a checked link. -/
def Meets (tree : Tree) (visit : Visit) : Prop :=
  ∃ parent name absolute target,
    IsProfileLink tree parent name absolute target ∧
      Relation.ReflTransGen (Step tree) ⟨parent, counted target⟩ visit

/--
In following the checked links, no `..` is met at the root that stands behind
a link or in an exempt subtree, and no absolute link.
-/
structure NoUncountedClimb (tree : Tree) : Prop where
  climb :
    ∀ rest, ¬ Meets tree ⟨[], ("..", false) :: rest⟩
  absolute :
    ∀ here name tag rest target,
      Meets tree ⟨here, (name, tag) :: rest⟩ →
        Tree.isName name = true →
          tree.node (here ++ [name]) ≠ some (.link true target)

/-! ## What the check has seen -/

section

variable {profileDir : String} {tree : Tree}

theorem length_le_height {item : Path × Node} (member : item ∈ tree) :
    item.1.length ≤ height tree := by
  rw [height]
  induction tree with
  | nil => cases member
  | cons first tree induction =>
      rw [List.map_cons, List.foldr_cons, le_max_iff]
      rcases List.mem_cons.1 member with rfl | later
      · exact Or.inl (le_refl _)
      · exact Or.inr (induction later)

theorem length_le_of_node
    {path : Path} {node : Node} (found : tree.node path = some node) :
    path.length ≤ height tree := by
  rw [FileTrees.Tree.node] at found
  split at found
  · next root =>
      rw [root]
      exact Nat.zero_le _
  · rcases List.lookup_eq_some_iff.1 found with ⟨before, rest, rfl, -⟩
    exact
      @length_le_height _ (path, node)
        (List.mem_append_right before List.mem_cons_self)

/-- A directory that is passed has no escaping link below it. -/
theorem not_escapesRoot_of_walkProfile
    {depth : Nat} {rel parent : Path} {atExtrasRoot inDropinContainer : Bool}
    {name : Name} {absolute : Bool} {target : List Name}
    (accepted :
      walkProfile profileDir tree depth rel atExtrasRoot inDropinContainer =
        .ok ())
    (deep : parent.length < depth)
    (isName : ∀ part ∈ parent ++ [name], Tree.isName part = true)
    (directories :
      ∀ front, front <+: parent → tree.node (rel ++ front) = some .folder)
    (isLink :
      tree.node (rel ++ (parent ++ [name])) = some (.link absolute target))
    (notExempt :
      isExemptFrom atExtrasRoot inDropinContainer (parent ++ [name]) = false) :
    escapesRoot (rel ++ parent) absolute target = false := by
  induction parent generalizing depth rel atExtrasRoot inDropinContainer with
  | nil =>
      obtain ⟨depth, rfl⟩ := Nat.exists_eq_add_one_of_ne_zero deep.ne_bot
      rw [List.nil_append] at isName isLink notExempt
      rw [isExemptFrom, Bool.or_eq_false_iff] at notExempt
      rw [walkProfile, Fallible.forM_eq_ok] at accepted
      have listed : name ∈ tree.names rel :=
        Tree.mem_names_iff.2 ⟨isName name List.mem_cons_self, by rw [isLink]; rfl⟩
      have passed := accepted name listed
      rw [if_neg (Bool.eq_false_iff.1 notExempt.1), isLink] at passed
      dsimp only at passed
      rw [List.append_nil]
      split at passed
      · cases passed
      · next stays => exact Bool.eq_false_iff.2 stays
  | cons first parent induction =>
      obtain ⟨depth, rfl⟩ := Nat.exists_eq_add_one_of_ne_zero deep.ne_bot
      rw [List.cons_append, List.forall_mem_cons] at isName
      rw [List.cons_append, isExemptFrom, Bool.or_eq_false_iff] at notExempt
      rw [walkProfile, Fallible.forM_eq_ok] at accepted
      have isFolder : tree.node (rel ++ [first]) = some .folder :=
        directories [first] (List.cons_prefix_cons.2 ⟨rfl, List.nil_prefix⟩)
      have listed : first ∈ tree.names rel :=
        Tree.mem_names_iff.2 ⟨isName.1, by rw [isFolder]; rfl⟩
      have passed := accepted first listed
      rw [if_neg (Bool.eq_false_iff.1 notExempt.1), isFolder] at passed
      have whole (path : Path) : rel ++ [first] ++ path = rel ++ first :: path := by
        rw [List.append_assoc, List.singleton_append]
      rw [← whole]
      refine
        induction passed (Nat.lt_of_succ_lt_succ deep) isName.2
          (fun front before => ?_) ?_ notExempt.2
      · rw [whole]
        exact directories _ (List.cons_prefix_cons.2 ⟨rfl, before⟩)
      · rw [whole]
        exact isLink

/-- The check has passed the target of each link. -/
theorem IsProfileLink.escapesRoot_eq_false
    (accepted : rejectEscapingSymlinks profileDir tree = .ok ())
    {parent : Path} {name : Name} {absolute : Bool} {target : List Name}
    (link : IsProfileLink tree parent name absolute target) :
    escapesRoot parent absolute target = false := by
  have deep : parent.length < height tree + 1 := by
    have short := length_le_of_node link.isLink
    rw [List.length_append] at short
    omega
  exact
    not_escapesRoot_of_walkProfile accepted deep link.isName link.directories
      link.isLink link.notExempt

end

/-! ## Counted names -/

section

variable {profileDir : String} {tree : Tree}

/-- The counted names come first, and do not climb out of the tree. -/
structure IsCounted (tree : Tree) (visit : Visit) : Prop where
  isName : ∀ part ∈ visit.here, Tree.isName part = true
  directories :
    ∀ front, front <+: visit.here → tree.node front = some .folder
  split :
    ∃ exact others,
      visit.pending = counted exact ++ uncounted others ∧
        climbsAbove visit.here.length exact = false

theorem climbsAbove_cons_dot (depth : Nat) (rest : List Name) :
    climbsAbove depth ("." :: rest) = climbsAbove depth rest := by
  rw [climbsAbove.eq_def]
  exact if_pos rfl

theorem climbsAbove_cons_up (depth : Nat) (rest : List Name) :
    climbsAbove (depth + 1) (".." :: rest) = climbsAbove depth rest := by
  rw [climbsAbove.eq_def]
  exact (if_neg (by decide)).trans (if_pos rfl)

theorem climbsAbove_zero_cons_up (rest : List Name) :
    climbsAbove 0 (".." :: rest) = true := by
  rw [climbsAbove.eq_def]
  exact (if_neg (by decide)).trans (if_pos rfl)

theorem climbsAbove_cons_of_isName
    {name : Name} (isName : Tree.isName name = true) (depth : Nat)
    (rest : List Name) :
    climbsAbove depth (name :: rest) = climbsAbove (depth + 1) rest := by
  rw [Tree.isName_iff] at isName
  rw [climbsAbove.eq_def]
  exact (if_neg isName.1).trans (if_neg isName.2)

/-- The names behind the next one, counted from where that one leads. -/
theorem IsCounted.rest
    {here there : Path} {name : Name} {tag : Bool} {rest : List (Name × Bool)}
    (known : IsCounted tree ⟨here, (name, tag) :: rest⟩)
    (counts :
      ∀ exact,
        climbsAbove here.length (name :: exact) = false →
          climbsAbove there.length exact = false) :
    ∃ exact others,
      rest = counted exact ++ uncounted others ∧
        climbsAbove there.length exact = false := by
  rcases known.split with ⟨exact, others, pending, stays⟩
  dsimp only at pending stays
  cases exact with
  | nil =>
      cases others with
      | nil => cases pending
      | cons other others =>
          rw [counted, List.map_nil, List.nil_append, uncounted,
            List.map_cons] at pending
          exact ⟨[], others, (List.cons.inj pending).2, rfl⟩
  | cons first exact =>
      rw [counted, List.map_cons, List.cons_append] at pending
      rcases List.cons.inj pending with ⟨same, restIs⟩
      cases same
      exact ⟨exact, others, restIs, counts exact stays⟩

theorem prefix_dropLast
    {front here : Path} (before : front <+: here.dropLast) : front <+: here :=
  before.trans (List.dropLast_prefix here)

theorem isCounted_of_step
    (accepted : rejectEscapingSymlinks profileDir tree = .ok ())
    {visit next : Visit} (step : Step tree visit next)
    (known : IsCounted tree visit) : IsCounted tree next := by
  cases step with
  | @dot here tag rest =>
      refine ⟨known.isName, known.directories, known.rest fun exact stays => ?_⟩
      rwa [climbsAbove_cons_dot] at stays
  | @up here tag rest below =>
      refine
        ⟨fun part member => known.isName part (List.dropLast_subset _ member),
          fun front before => known.directories front (prefix_dropLast before),
          known.rest fun exact stays => ?_⟩
      obtain ⟨depth, length⟩ :=
        Nat.exists_eq_add_one_of_ne_zero (mt List.length_eq_zero_iff.1 below)
      dsimp only
      rw [length, climbsAbove_cons_up] at stays
      rw [List.length_dropLast, length]
      exact stays
  | @down here name tag rest isName found =>
      refine ⟨?_, ?_, known.rest fun exact stays => ?_⟩
      · intro part member
        rcases List.mem_append.1 member with before | now
        · exact known.isName part before
        · rw [List.mem_singleton.1 now]
          exact isName
      · intro front before
        rcases List.prefix_concat_iff.1 before with rfl | earlier
        · exact found
        · exact known.directories front earlier
      · rw [climbsAbove_cons_of_isName isName] at stays
        rwa [List.length_append, List.length_singleton]
  | @follow here name tag rest target isName found =>
      refine ⟨known.isName, known.directories, ?_⟩
      rw [taggedTarget]
      by_cases exempt : isExempt (here ++ [name]) = true
      · rw [if_pos exempt]
        refine ⟨[], target ++ rest.map (·.1), ?_, rfl⟩
        simp [counted, uncounted]
      · rw [if_neg exempt]
        refine ⟨target, rest.map (·.1), rfl, ?_⟩
        have link : IsProfileLink tree here name false target :=
          { isName := fun part member => by
              rcases List.mem_append.1 member with before | now
              · exact known.isName part before
              · rw [List.mem_singleton.1 now]
                exact isName
            directories := known.directories
            isLink := found
            notExempt := Bool.eq_false_iff.2 exempt }
        exact link.escapesRoot_eq_false accepted

/-- What is met in following a link of an accepted tree. -/
theorem Meets.isCounted
    (accepted : rejectEscapingSymlinks profileDir tree = .ok ())
    {visit : Visit} (met : Meets tree visit) : IsCounted tree visit := by
  rcases met with ⟨parent, name, absolute, target, link, steps⟩
  induction steps with
  | refl =>
      have stays := link.escapesRoot_eq_false accepted
      rw [escapesRoot, Bool.or_eq_false_iff] at stays
      exact
        { isName := fun part member =>
            link.isName part (List.mem_append_left _ member)
          directories := link.directories
          split := ⟨target, [], (List.append_nil _).symm, stays.2⟩ }
  | tail _ step known => exact isCounted_of_step accepted step known

theorem Meets.step
    {visit next : Visit} (met : Meets tree visit) (step : Step tree visit next) :
    Meets tree next := by
  rcases met with ⟨parent, name, absolute, target, link, steps⟩
  exact ⟨parent, name, absolute, target, link, steps.tail step⟩

end

/-! ## Following in a file system -/

section

variable {profileDir : String} {tree outer : Tree} {root : Path}

theorem append_dropLast
    {here : Path} (below : here ≠ []) :
    (root ++ here).dropLast = root ++ here.dropLast :=
  List.dropLast_append_of_ne_nil below

theorem names_follow
    (link : Path) (target : List Name) (rest : List (Name × Bool)) :
    (taggedTarget link target ++ uncounted (rest.map (·.1))).map (·.1) =
      target ++ rest.map (·.1) := by
  have tags (tag : Bool) (names : List Name) :
      (names.map fun name => (name, tag)).map (·.1) = names := by
    rw [List.map_map]
    exact List.map_id names
  rw [List.map_append, uncounted, tags, taggedTarget]
  split
  · rw [uncounted, tags]
  · rw [counted, tags]

/-- The file system takes the steps too, wherever the tree lies in it. -/
theorem exists_walk_of_step
    (holds : Holds outer root tree) {visit next : Visit}
    (step : Step tree visit next) (links : Nat) :
    ∃ more,
      outer.walk more (root ++ visit.here) visit.names =
        outer.walk links (root ++ next.here) next.names := by
  cases step with
  | @dot here tag rest => exact ⟨links, Tree.walk_cons_dot links⟩
  | @up here tag rest below =>
      refine ⟨links, (Tree.walk_cons_up links).trans ?_⟩
      rw [append_dropLast below]
      rfl
  | @down here name tag rest isName found =>
      rw [← holds.node_concat] at found
      refine ⟨links, (Tree.walk_cons_folder isName found links).trans ?_⟩
      rw [List.append_assoc]
      rfl
  | @follow here name tag rest target isName found =>
      rw [← holds.node_concat] at found
      refine ⟨links + 1, (Tree.walk_cons_link isName found links).trans ?_⟩
      rw [if_neg (by decide), Visit.names, names_follow]

theorem exists_walk_of_steps
    (holds : Holds outer root tree) {visit last : Visit}
    (steps : Relation.ReflTransGen (Step tree) visit last) (links : Nat) :
    ∃ more,
      outer.walk more (root ++ visit.here) visit.names =
        outer.walk links (root ++ last.here) last.names := by
  induction steps using Relation.ReflTransGen.head_induction_on with
  | refl => exact ⟨links, rfl⟩
  | head step _ later =>
      rcases later with ⟨more, equal⟩
      rcases exists_walk_of_step holds step more with ⟨further, first⟩
      exact ⟨further, first.trans equal⟩

/-- What is met in following links is met by the file system in following
one of them. -/
theorem exists_walk_of_meets
    (accepted : rejectEscapingSymlinks profileDir tree = .ok ())
    (holds : Holds outer root tree) {visit : Visit} (met : Meets tree visit)
    (links : Nat) :
    ∃ parent name absolute target more,
      IsProfileLink tree parent name absolute target ∧
        outer.walk more (root ++ parent) [name] =
          outer.walk links (root ++ visit.here) visit.names := by
  rcases met with ⟨parent, name, absolute, target, link, steps⟩
  rcases exists_walk_of_steps holds steps links with ⟨more, equal⟩
  have relative : absolute = false := by
    have stays := link.escapesRoot_eq_false accepted
    rw [escapesRoot, Bool.or_eq_false_iff] at stays
    exact stays.1
  have found := link.isLink
  rw [← holds.node_concat] at found
  refine ⟨parent, name, absolute, target, more + 1, link, ?_⟩
  rw [Tree.walk_cons_link (link.isName name (by simp)) found, relative,
    if_neg (by decide), List.append_nil, ← equal, Visit.names, counted,
    List.map_map]
  exact congrArg _ (List.map_id target).symm

/-- Where a name is met, its walk goes on from there to wherever names lead. -/
theorem not_contained_of_meets
    (accepted : rejectEscapingSymlinks profileDir tree = .ok ())
    {visit : Visit} (met : Meets tree visit) (names : List Name)
    (leaves :
      ∀ outer root, Holds outer [root] tree →
        ∃ links,
          outer.walk links ([root] ++ visit.here) visit.names =
            outer.walk 0 [] names) :
    ¬ Contained tree := by
  intro contained
  rcases exists_holds_walk tree names with
    ⟨outer, root, place, holds, outside, led⟩
  rcases leaves outer root holds with ⟨links, equal⟩
  rcases exists_walk_of_meets accepted holds met links with
    ⟨parent, name, absolute, target, more, link, same⟩
  refine
    outside
      (contained outer [root] holds parent name absolute target link more place
        ?_)
  rw [same, equal, led]

theorem noUncountedClimb_of_contained
    (accepted : rejectEscapingSymlinks profileDir tree = .ok ())
    (contained : Contained tree) : NoUncountedClimb tree where
  climb rest met := by
    refine
      not_contained_of_meets accepted met (rest.map (·.1))
        (fun outer root holds => ⟨0, ?_⟩) contained
    exact Tree.walk_cons_up 0
  absolute here name tag rest target met isName found := by
    refine
      not_contained_of_meets accepted met (target ++ rest.map (·.1))
        (fun outer root holds => ⟨1, ?_⟩) contained
    rw [← holds.node_concat] at found
    exact Tree.walk_cons_link isName found 0

/-- Up to the next link, the names that are met stay in the tree. -/
theorem prefix_of_walk_of_follows
    (accepted : rejectEscapingSymlinks profileDir tree = .ok ())
    (holds : Holds outer root tree) (noClimb : NoUncountedClimb tree)
    {links : Nat} {place : Path}
    (follows :
      ∀ here name tag rest target, Meets tree ⟨here, (name, tag) :: rest⟩ →
        Tree.isName name = true →
          tree.node (here ++ [name]) = some (.link false target) →
            outer.walk links (root ++ here) (name :: rest.map (·.1)) =
                some place →
              root <+: place)
    {here : Path} {pending : List (Name × Bool)}
    (met : Meets tree ⟨here, pending⟩)
    (led :
      outer.walk links (root ++ here) (pending.map (·.1)) = some place) :
    root <+: place := by
  induction pending generalizing here with
  | nil =>
      rw [Tree.walk_nil led]
      exact List.prefix_append root here
  | cons item rest induction =>
      rcases item with ⟨name, tag⟩
      rw [List.map_cons] at led
      by_cases stays : name = "."
      · cases stays
        rw [Tree.walk_cons_dot] at led
        exact induction (met.step .dot) led
      by_cases up : name = ".."
      · cases up
        by_cases top : here = []
        · cases top
          cases tag with
          | false => exact absurd met (noClimb.climb rest)
          | true =>
              rcases (met.isCounted accepted).split with
                ⟨exact, others, pending, climbs⟩
              cases exact with
              | nil =>
                  cases others with
                  | nil => cases pending
                  | cons other others => cases pending
              | cons first exact =>
                  cases pending
                  cases (climbsAbove_zero_cons_up exact).symm.trans climbs
        · rw [Tree.walk_cons_up, append_dropLast top] at led
          exact induction (met.step (.up top)) led
      · have isName := Tree.isName_of_ne stays up
        have same := holds.node_concat here name
        cases found : tree.node (here ++ [name]) with
        | none =>
            rw [Tree.walk_cons_none isName (same.trans found)] at led
            cases led
        | some node =>
            cases node with
            | folder =>
                rw [Tree.walk_cons_folder isName (same.trans found),
                  List.append_assoc] at led
                exact induction (met.step (.down isName found)) led
            | link absolute target =>
                cases absolute with
                | true =>
                    exact
                      absurd found
                        (noClimb.absolute here name tag rest target met isName)
                | false => exact follows here name tag rest target met isName found led
            | file content =>
                rw [Tree.walk_cons_leaf isName (same.trans found) (by simp) rfl]
                  at led
                split at led
                · cases led
                  rw [List.append_assoc]
                  exact List.prefix_append root _
                · cases led
            | other =>
                rw [Tree.walk_cons_leaf isName (same.trans found) (by simp) rfl]
                  at led
                split at led
                · cases led
                  rw [List.append_assoc]
                  exact List.prefix_append root _
                · cases led

/-- Without a climb behind a link, the file system stays in the tree. -/
theorem prefix_of_walk
    (accepted : rejectEscapingSymlinks profileDir tree = .ok ())
    (holds : Holds outer root tree) (noClimb : NoUncountedClimb tree)
    {links : Nat} {here place : Path} {pending : List (Name × Bool)}
    (met : Meets tree ⟨here, pending⟩)
    (led :
      outer.walk links (root ++ here) (pending.map (·.1)) = some place) :
    root <+: place := by
  induction links generalizing here pending with
  | zero =>
      refine prefix_of_walk_of_follows accepted holds noClimb ?_ met led
      intro here name tag rest target met isName found led
      rw [← holds.node_concat] at found
      rw [Tree.walk_zero_cons_link isName found] at led
      cases led
  | succ links followed =>
      refine prefix_of_walk_of_follows accepted holds noClimb ?_ met led
      intro here name tag rest target met isName found led
      have step := met.step (.follow isName found)
      rw [← holds.node_concat] at found
      rw [Tree.walk_cons_link isName found, if_neg (by decide)] at led
      refine followed step ?_
      rw [names_follow]
      exact led

/--
An accepted tree holds no escaping link, wherever it lies, exactly if no `..`
climbs out of it uncounted.
-/
theorem contained_iff
    (accepted : rejectEscapingSymlinks profileDir tree = .ok ()) :
    Contained tree ↔ NoUncountedClimb tree := by
  refine ⟨noUncountedClimb_of_contained accepted, fun noClimb => ?_⟩
  intro outer root holds parent name absolute target link links place led
  have stays := link.escapesRoot_eq_false accepted
  rw [escapesRoot, Bool.or_eq_false_iff] at stays
  have isName := link.isName name (by simp)
  have found := link.isLink
  rw [← holds.node_concat] at found
  cases links with
  | zero =>
      rw [Tree.walk_zero_cons_link isName found] at led
      cases led
  | succ links =>
      rw [Tree.walk_cons_link isName found, stays.1, if_neg (by decide),
        List.append_nil] at led
      have met : Meets tree ⟨parent, counted target⟩ :=
        ⟨parent, name, absolute, target, link, .refl⟩
      refine
        @prefix_of_walk _ _ _ _ accepted holds noClimb links _ _ _ met ?_
      rw [counted, List.map_map]
      exact (congrArg _ (List.map_id target)).trans led

end

/-! ## Two profiles -/

/-- A link to the root of the profile. -/
def sampleProfile : Tree :=
  [(["d"], .folder), (["d", "x"], .link false [".."])]

theorem IsProfileLink.eq_sampleProfile
    {parent : Path} {name : Name} {absolute : Bool} {target : List Name}
    (link : IsProfileLink sampleProfile parent name absolute target) :
    parent = ["d"] ∧ target = [".."] := by
  have found := link.isLink
  rw [FileTrees.Tree.node, if_neg (by simp)] at found
  simp only [sampleProfile, List.lookup_cons, List.lookup_nil] at found
  split at found
  · cases found
  · split at found
    · next same =>
        cases found
        have ends : parent ++ [name] = ["d"] ++ ["x"] := beq_iff_eq.1 same
        exact ⟨(List.append_inj' ends rfl).1, rfl⟩
    · cases found

/-- At `..` there is one step. -/
theorem Step.eq_up
    {tree : Tree} {here : Path} {tag : Bool} {rest : List (Name × Bool)}
    {next : Visit} (step : Step tree ⟨here, ("..", tag) :: rest⟩ next) :
    next = ⟨here.dropLast, rest⟩ := by
  generalize start : (⟨here, ("..", tag) :: rest⟩ : Visit) = visit at step
  cases step with
  | dot => exact absurd (Visit.mk.inj start).2 (by simp)
  | up below =>
      cases start
      rfl
  | down isName found =>
      cases start
      cases isName
  | follow isName found =>
      cases start
      cases isName

theorem Meets.eq_sampleProfile
    {visit : Visit} (met : Meets sampleProfile visit) :
    visit = ⟨["d"], [("..", true)]⟩ ∨ visit = ⟨[], []⟩ := by
  rcases met with ⟨parent, name, absolute, target, link, steps⟩
  rcases link.eq_sampleProfile with ⟨rfl, rfl⟩
  induction steps with
  | refl => exact Or.inl rfl
  | tail _ step known =>
      rcases known with rfl | rfl
      · exact Or.inr step.eq_up
      · cases step

theorem contained_sampleProfile :
    rejectEscapingSymlinks "/profile" sampleProfile = .ok () ∧
      Contained sampleProfile := by
  have accepted :
      rejectEscapingSymlinks "/profile" sampleProfile = .ok () := by
    decide +kernel
  refine ⟨accepted, (contained_iff accepted).2 { climb := ?_, absolute := ?_ }⟩
  · intro rest met
    rcases met.eq_sampleProfile with impossible | impossible
    · cases impossible
    · cases impossible
  · intro here name tag rest target met isName
    rcases met.eq_sampleProfile with same | impossible
    · cases same
      cases isName
    · cases impossible

/-- A link through the one to the root, and up from there. -/
def climbingProfile : Tree :=
  sampleProfile ++ [(["d", "y"], .link false ["x", ".."])]

/-- The tree is accepted, and its second link leads to the parent of its root. -/
theorem not_contained_climbingProfile :
    rejectEscapingSymlinks "/profile" climbingProfile = .ok () ∧
      (mount "profile" climbingProfile []).walk 2 ["profile", "d"] ["y"] =
        some [] ∧
        ¬ ∀ (profileDir : String) (tree : Tree),
          rejectEscapingSymlinks profileDir tree = .ok () → Contained tree := by
  have accepted :
      rejectEscapingSymlinks "/profile" climbingProfile = .ok () := by
    decide +kernel
  have led :
      (mount "profile" climbingProfile []).walk 2 ["profile", "d"] ["y"] =
        some [] := by
    decide
  refine ⟨accepted, led, fun contained => ?_⟩
  have holds :
      Holds (mount "profile" climbingProfile []) ["profile"]
        climbingProfile :=
    holds_mount (List.forall_mem_nil _)
  have directories :
      ∀ front, front <+: ["d"] → climbingProfile.node front = some .folder := by
    intro front before
    rcases List.prefix_concat_iff.1 (show front <+: [] ++ ["d"] from before) with
      rfl | empty
    · rfl
    · rw [List.prefix_nil.1 empty]
      rfl
  have link :
      IsProfileLink climbingProfile ["d"] "y" false ["x", ".."] :=
    { isName := by decide, directories, isLink := rfl, notExempt := by decide }
  have inside :=
    contained "/profile" climbingProfile accepted _ _ holds _ _ _ _ link 2 []
      led
  exact absurd inside (by decide)

end Confos.Image.ProfileLinks
