import Confos.Library.Effects
import Confos.Library.FileTrees
import Confos.Library.PathTexts

/-!
# The output directory of a build

`confos build` clears `output/NAME` before it writes there.  It looks at the
last part of the path for a symbolic link, while the parts in front of it and
the dots and slashes of the name decide which directory the path leads to.
-/

namespace Confos.Image.OutputDirectory

open Confos.Library.Effects
open Confos.Library.FileTrees
open Confos.Library.PathTexts

/-! ## Paths of the system -/

/-- What the system decides: the links it follows, and whether a path that
leads nowhere counts as missing or as another error. -/
structure Host where
  links : Nat
  missing : Tree → String → Bool

/-- The parts that the system follows; a slash at the end asks for a directory. -/
def partsOf (text : String) : List Name :=
  (segments text).filter (· ≠ "")

def walkedParts (text : String) : List Name :=
  partsOf text ++ if lastSegment text = "" then ["."] else []

section

variable (host : Host) (checkout : Path) (text : String) (tree : Tree)

/-- Where a path starts, in a process that runs in the checkout. -/
def startOf : Path :=
  if isAbsolute text then [] else checkout

def followed : Option Path :=
  tree.walk host.links (startOf checkout text) (walkedParts text)

def entry : Option Path :=
  tree.entryFrom host.links (startOf checkout text) (walkedParts text)

/-- The entry that `rmdir` deletes, a slash at the end or not. -/
def rmdirEntry : Option Path :=
  match (partsOf text).getLast? with
  | none => none
  | some name =>
      if Tree.isName name then
        (tree.walk host.links (startOf checkout text)
          (partsOf text).dropLast).map (· ++ [name])
      else
        none

end

/-! ## Preparing the output directory -/

abbrev Program := EStateM String Tree

section

variable (host : Host) (checkout : Path)

/-- `rmdir` deletes empty directories. -/
def rmdir (text : String) : Program Unit := do
  let tree ← get
  match rmdirEntry host checkout text tree with
  | none => throw "failed to remove directory"
  | some place =>
      if tree.node place = some .folder ∧
          ∀ item ∈ tree, Tree.isBelow place item.1 = false then
        set (tree.without (· = place))
      else
        throw "failed to remove directory"

/-- `std::fs::remove_dir_all`: the content of the directory, then itself; a
link in its place is deleted, not followed. -/
def removeDirAll (text : String) : Program Unit := do
  let tree ← get
  match entry host checkout text tree with
  | none => throw "failed to remove directory"
  | some place =>
      match tree.node place with
      | some (.link _ _) => set (tree.without (· = place))
      | some .folder =>
          set (tree.without (Tree.isBelow place))
          rmdir host checkout text
      | _ => throw "failed to remove directory"

/-- `PathBuf::from("output").join(name)` -/
def outputText (name : String) : String :=
  if isAbsolute name then name else "output/" ++ name

/-- What `run` does with what the output directory held. -/
def clearOutput (name : String) : Program Unit := do
  let tree ← get
  match followed host checkout (outputText name) tree with
  | none =>
      if host.missing tree (outputText name) then
        return
      else
        throw "failed to query metadata"
  | some _ =>
      if (entry host checkout (outputText name) tree).any fun place =>
          Tree.isLink (tree.node place) then
        throw s!"output path is a symlink (refusing to delete): {name}"
      else
        removeDirAll host checkout (outputText name)

end

/-! ## What may be deleted -/

section

variable (host : Host) (checkout : Path) (tree : Tree) (name : String)

/-- A directory below the output directory, reached through no link. -/
structure IsSubdirectory (target : Path) : Prop where
  reached :
    tree.walk 0 (startOf checkout (outputText name))
        (walkedParts (outputText name)) =
      some target
  below : Tree.isBelow (checkout ++ ["output"]) target = true

/-- What is deleted is in a subdirectory of the output directory, and without
one the command fails and deletes nothing. -/
structure DeletesInside : Prop where
  inside :
    ∀ item ∈ tree,
      item ∉ worldAfter (clearOutput host checkout name tree) →
        ∃ target,
          IsSubdirectory checkout tree name target ∧ target <+: item.1
  otherwise :
    (∀ target, ¬ IsSubdirectory checkout tree name target) →
      worldAfter (clearOutput host checkout name tree) = tree ∧
        (succeeds (clearOutput host checkout name tree) = true →
          followed host checkout (outputText name) tree = none)

/-- The paths that are safe to clear. -/
inductive SafeToClear : Prop where
  | missing
      (missing : followed host checkout (outputText name) tree = none)
  | link
      (place : Path)
      (named : entry host checkout (outputText name) tree = some place)
      (isLink : Tree.isLink (tree.node place) = true)
  | notFolder
      (place : Path)
      (led : followed host checkout (outputText name) tree = some place)
      (notFolder : tree.node place ≠ some .folder)
  | subdirectory
      (target : Path)
      (inside : IsSubdirectory checkout tree name target)
  /-- An empty directory that `rmdir` does not delete under this name. -/
  | kept
      (place : Path)
      (led : followed host checkout (outputText name) tree = some place)
      (empty : ∀ item ∈ tree, Tree.isBelow place item.1 = false)
      (stays :
        ∀ named,
          rmdirEntry host checkout (outputText name) tree = some named →
            Tree.isLink (tree.node named) = true)

end

/-! ## Entries and where they lead -/

section

variable {host : Host} {checkout : Path} {tree after : Tree} {text : String}
  {place named : Path}

theorem walk_partsOf
    (led : followed host checkout text tree = some place) :
    tree.walk host.links (startOf checkout text) (partsOf text) =
      some place := by
  rw [followed, walkedParts] at led
  split at led
  · exact Tree.walk_of_walk_concat_dot led
  · rwa [List.append_nil] at led

/-- What `rmdir` deletes is where the path leads, or a link that is followed. -/
theorem eq_or_isLink_of_rmdirEntry
    (led : followed host checkout text tree = some place)
    (entryIs : rmdirEntry host checkout text tree = some named) :
    place = named ∨ Tree.isLink (tree.node named) = true := by
  rw [rmdirEntry] at entryIs
  split at entryIs
  · cases entryIs
  · next last lastIs =>
      split at entryIs
      · next isName =>
          rcases Option.map_eq_some_iff.1 entryIs with ⟨middle, front, rfl⟩
          have ledByParts := walk_partsOf led
          rw [← List.dropLast_append_getLast? last lastIs] at ledByParts
          rcases Tree.exists_of_walk_concat isName ledByParts with
            ⟨other, frontAgain, same⟩
          cases front.symm.trans frontAgain
          exact same
      · cases entryIs

/-- The entry of a path is where it leads, or a link that is followed. -/
theorem exists_entry
    (led : followed host checkout text tree = some place) :
    ∃ found,
      entry host checkout text tree = some found ∧
        (place = found ∨ Tree.isLink (tree.node found) = true) := by
  rw [followed] at led
  rw [entry, Tree.entryFrom]
  split
  · next none =>
      rw [List.getLast?_eq_none_iff.1 none] at led
      exact ⟨_, rfl, Or.inl (Tree.walk_nil led)⟩
  · next last lastIs =>
      split
      · next isName =>
          rw [← List.dropLast_append_getLast? last lastIs] at led
          rcases Tree.exists_of_walk_concat isName led with
            ⟨middle, front, same⟩
          rw [front]
          exact ⟨_, rfl, same⟩
      · exact ⟨place, led, Or.inl rfl⟩

theorem rmdirEntry_of_shrinks
    (shrinks : Tree.Shrinks tree after)
    (entryIs : rmdirEntry host checkout text after = some named) :
    rmdirEntry host checkout text tree = some named := by
  rw [rmdirEntry] at entryIs ⊢
  split at entryIs
  · cases entryIs
  · split at entryIs
    · next isName =>
        rcases Option.map_eq_some_iff.1 entryIs with ⟨middle, front, rfl⟩
        rw [if_pos isName, shrinks.walk front]
        rfl
    · cases entryIs

end

/-! ## What the steps do -/

section

variable {host : Host} {checkout : Path} {tree : Tree} {text : String}

theorem rmdir_eq :
    rmdir host checkout text tree =
      match rmdirEntry host checkout text tree with
      | none => .error "failed to remove directory" tree
      | some place =>
          if tree.node place = some .folder ∧
              ∀ item ∈ tree, Tree.isBelow place item.1 = false then
            .ok () (tree.without (· = place))
          else
            .error "failed to remove directory" tree := by
  rw [rmdir, bind_of_ok get_eq_ok]
  cases rmdirEntry host checkout text tree with
  | none => rfl
  | some place =>
      dsimp only
      split
      · rfl
      · rfl

theorem mem_of_mem_rmdir
    {item : Path × Node}
    (kept : item ∈ worldAfter (rmdir host checkout text tree)) :
    item ∈ tree := by
  rw [rmdir_eq] at kept
  split at kept
  · exact kept
  · split at kept
    · exact List.mem_of_mem_filter kept
    · exact kept

/-- What `rmdir` loses is the entry, a directory. -/
theorem of_notMem_rmdir
    {item : Path × Node} (member : item ∈ tree)
    (lost : item ∉ worldAfter (rmdir host checkout text tree)) :
    rmdirEntry host checkout text tree = some item.1 ∧
      tree.node item.1 = some .folder := by
  rw [rmdir_eq] at lost
  split at lost
  · exact absurd member lost
  · next place named =>
      split at lost
      · next deletes =>
          have gone : item.1 = place := by
            by_contra other
            exact
              lost (List.mem_filter.2 ⟨member, by simpa using other⟩)
          rw [named, gone]
          exact ⟨rfl, deletes.1⟩
      · exact absurd member lost

end

section

variable {host : Host} {checkout : Path} {tree : Tree} {name : String}
  {place : Path}

theorem clearOutput_of_none
    (missing : followed host checkout (outputText name) tree = none) :
    worldAfter (clearOutput host checkout name tree) = tree := by
  rw [clearOutput, bind_of_ok get_eq_ok, missing]
  dsimp only
  split
  · rfl
  · rfl

theorem clearOutput_of_link
    {found : Path}
    (led : followed host checkout (outputText name) tree = some place)
    (named : entry host checkout (outputText name) tree = some found)
    (isLink : Tree.isLink (tree.node found) = true) :
    clearOutput host checkout name tree =
      .error s!"output path is a symlink (refusing to delete): {name}" tree := by
  rw [clearOutput, bind_of_ok get_eq_ok, led]
  dsimp only
  rw [if_pos (by rw [named]; exact isLink)]
  rfl

/-- Without a link the path leads to its entry, which is deleted. -/
theorem clearOutput_of_place
    (led : followed host checkout (outputText name) tree = some place)
    (named : entry host checkout (outputText name) tree = some place)
    (notLink : Tree.isLink (tree.node place) = false) :
    clearOutput host checkout name tree =
      if tree.node place = some .folder then
        rmdir host checkout (outputText name)
          (tree.without (Tree.isBelow place))
      else
        .error "failed to remove directory" tree := by
  have passes :
      ¬ (entry host checkout (outputText name) tree).any (fun place =>
          Tree.isLink (tree.node place)) = true := by
    rw [named]
    exact Bool.not_eq_true _ ▸ notLink
  rw [clearOutput, bind_of_ok get_eq_ok, led]
  dsimp only
  rw [if_neg passes, removeDirAll, bind_of_ok get_eq_ok, named]
  dsimp only
  cases found : tree.node place with
  | none => rfl
  | some node =>
      rw [found] at notLink
      cases node with
      | link absolute target => cases notLink
      | folder => rfl
      | file content => rfl
      | other => rfl

/-- The two ways to go on where the path leads somewhere. -/
theorem clearOutput_of_some
    (led : followed host checkout (outputText name) tree = some place) :
    (∃ found,
        entry host checkout (outputText name) tree = some found ∧
          Tree.isLink (tree.node found) = true) ∨
      entry host checkout (outputText name) tree = some place ∧
        Tree.isLink (tree.node place) = false := by
  rcases exists_entry led with ⟨found, named, same⟩
  cases isLink : Tree.isLink (tree.node found) with
  | true => exact Or.inl ⟨found, named, isLink⟩
  | false =>
      rcases same with rfl | impossible
      · exact Or.inr ⟨named, isLink⟩
      · rw [isLink] at impossible
        cases impossible

/-- What is lost is the directory that the path leads to, or below it. -/
theorem prefix_of_notMem_clearOutput
    {item : Path × Node} (member : item ∈ tree)
    (lost : item ∉ worldAfter (clearOutput host checkout name tree)) :
    ∃ place,
      followed host checkout (outputText name) tree = some place ∧
        place <+: item.1 := by
  cases led : followed host checkout (outputText name) tree with
  | none =>
      rw [clearOutput_of_none led] at lost
      exact absurd member lost
  | some place =>
      refine ⟨place, rfl, ?_⟩
      rcases clearOutput_of_some led with ⟨found, named, isLink⟩ | ⟨named, notLink⟩
      · rw [clearOutput_of_link led named isLink] at lost
        exact absurd member lost
      · rw [clearOutput_of_place led named notLink] at lost
        split at lost
        · cases below : Tree.isBelow place item.1 with
          | true =>
              rw [Tree.isBelow, Bool.and_eq_true] at below
              exact List.isPrefixOf_iff_prefix.1 below.1
          | false =>
              have kept : item ∈ tree.without (Tree.isBelow place) :=
                List.mem_filter.2 ⟨member, by simp [below]⟩
              have shrinks := Tree.shrinks_without tree (Tree.isBelow place)
              rcases of_notMem_rmdir kept lost with ⟨entryIs, isFolder⟩
              rcases eq_or_isLink_of_rmdirEntry led
                  (rmdirEntry_of_shrinks shrinks entryIs) with
                same | impossible
              · rw [same]
              · rw [shrinks.node isFolder] at impossible
                cases impossible
        · exact absurd member lost

end

/-! ## When only a subdirectory is deleted -/

section

variable {host : Host} {checkout : Path} {tree : Tree} {name : String}

theorem IsSubdirectory.followed
    {target : Path} (inside : IsSubdirectory checkout tree name target) :
    followed host checkout (outputText name) tree = some target :=
  Tree.walk_of_walk_zero inside.reached host.links

theorem deletesInside_of_subdirectory
    {target : Path} (inside : IsSubdirectory checkout tree name target) :
    DeletesInside host checkout tree name where
  inside item member lost := by
    rcases prefix_of_notMem_clearOutput member lost with ⟨place, led, within⟩
    cases inside.followed.symm.trans led
    exact ⟨target, inside, within⟩
  otherwise none := absurd inside (none target)

/-- Where nothing is deleted, the command fails or finds nothing. -/
theorem deletesInside_of_unchanged
    (unchanged : worldAfter (clearOutput host checkout name tree) = tree)
    (fails :
      succeeds (clearOutput host checkout name tree) = true →
        followed host checkout (outputText name) tree = none) :
    DeletesInside host checkout tree name where
  inside item member lost := by
    rw [unchanged] at lost
    exact absurd member lost
  otherwise _ := ⟨unchanged, fails⟩

theorem without_eq_self
    {deleted : Path → Bool} (none : ∀ item ∈ tree, deleted item.1 = false) :
    tree.without deleted = tree :=
  List.filter_eq_self.2 fun item member => by simp [none item member]

theorem deletesInside_of_safeToClear
    (safe : SafeToClear host checkout tree name) :
    DeletesInside host checkout tree name := by
  cases led : followed host checkout (outputText name) tree with
  | none =>
      exact
        deletesInside_of_unchanged (clearOutput_of_none led) fun _ => led
  | some place =>
      rcases clearOutput_of_some led with ⟨found, named, isLink⟩ | ⟨named, notLink⟩
      · have failed := clearOutput_of_link led named isLink
        refine deletesInside_of_unchanged (by rw [failed]; rfl) fun done => ?_
        rw [failed] at done
        cases done
      · have ran := clearOutput_of_place led named notLink
        cases safe with
        | missing missing => rw [led] at missing; cases missing
        | link other namedOther isLink =>
            cases named.symm.trans namedOther
            rw [notLink] at isLink
            cases isLink
        | notFolder other ledOther notFolder =>
            cases led.symm.trans ledOther
            rw [if_neg notFolder] at ran
            refine deletesInside_of_unchanged (by rw [ran]; rfl) fun done => ?_
            rw [ran] at done
            cases done
        | subdirectory target inside =>
            exact deletesInside_of_subdirectory inside
        | kept other ledOther empty stays =>
            cases led.symm.trans ledOther
            rw [without_eq_self empty, rmdir_eq] at ran
            have failed :
                clearOutput host checkout name tree =
                  .error "failed to remove directory" tree := by
              rw [ran]
              split
              · split
                · rfl
                · next last lastIs =>
                    rw [if_neg]
                    rintro ⟨isFolder, -⟩
                    have isLink := stays last lastIs
                    rw [isFolder] at isLink
                    cases isLink
              · rfl
            refine
              deletesInside_of_unchanged (by rw [failed]; rfl) fun done => ?_
            rw [failed] at done
            cases done

theorem safeToClear_of_deletesInside
    (deletes : DeletesInside host checkout tree name) :
    SafeToClear host checkout tree name := by
  by_cases inside : ∃ target, IsSubdirectory checkout tree name target
  · rcases inside with ⟨target, inside⟩
    exact .subdirectory target inside
  · rcases deletes.otherwise (not_exists.1 inside) with ⟨unchanged, fails⟩
    cases led : followed host checkout (outputText name) tree with
    | none => exact .missing led
    | some place =>
        rcases clearOutput_of_some led with
          ⟨found, named, isLink⟩ | ⟨named, notLink⟩
        · exact .link found named isLink
        · by_cases isFolder : tree.node place = some .folder
          · have ran := clearOutput_of_place led named notLink
            rw [if_pos isFolder] at ran
            have empty :
                ∀ item ∈ tree, Tree.isBelow place item.1 = false := by
              intro item member
              rw [← unchanged, ran] at member
              simpa using (List.mem_filter.1 (mem_of_mem_rmdir member)).2
            refine .kept place led empty fun last lastIs => ?_
            rcases eq_or_isLink_of_rmdirEntry led lastIs with rfl | isLink
            · rw [without_eq_self empty, rmdir_eq, lastIs] at ran
              dsimp only at ran
              rw [if_pos ⟨isFolder, empty⟩] at ran
              exact absurd (fails (by rw [ran]; rfl)) (by rw [led]; simp)
            · exact isLink
          · exact .notFolder place led isFolder

/--
Clearing the output directory deletes inside it, or fails without deleting,
exactly where its path is safe to clear.
-/
theorem deletesInside_iff
    (host : Host) (checkout : Path) (tree : Tree) (name : String) :
    DeletesInside host checkout tree name ↔
      SafeToClear host checkout tree name :=
  ⟨safeToClear_of_deletesInside, deletesInside_of_safeToClear⟩

end

/-! ## A name that is the checkout -/

def sampleHost : Host where
  links := 40
  missing _ _ := true

def sampleCheckout : Tree :=
  [(["repo"], .folder), (["repo", "Cargo.toml"], .file []),
    (["repo", "output"], .folder), (["repo", "output", "base"], .folder)]

theorem clearOutput_dotDot :
    worldAfter (clearOutput sampleHost ["repo"] ".." sampleCheckout) =
      [(["repo"], .folder)] := by
  decide +kernel

/-- `..` has everything in the checkout deleted. -/
theorem not_deletesInside_dotDot :
    worldAfter (clearOutput sampleHost ["repo"] ".." sampleCheckout) =
        [(["repo"], .folder)] ∧
      ¬ ∀ (host : Host) (checkout : Path) (tree : Tree) (name : String),
        DeletesInside host checkout tree name := by
  refine ⟨clearOutput_dotDot, fun deletes => ?_⟩
  have noTarget :
      ∀ target, ¬ IsSubdirectory ["repo"] sampleCheckout ".." target := by
    rintro target ⟨reached, below⟩
    have led :
        Tree.walk sampleCheckout 0 (startOf ["repo"] (outputText ".."))
            (walkedParts (outputText "..")) =
          some ["repo"] := by
      decide +kernel
    cases led.symm.trans reached
    exact absurd below (by decide)
  have kept :=
    ((deletes sampleHost ["repo"] sampleCheckout "..").otherwise noTarget).1
  rw [clearOutput_dotDot] at kept
  exact absurd (congrArg List.length kept) (by decide)

end Confos.Image.OutputDirectory
