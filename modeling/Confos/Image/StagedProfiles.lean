import Confos.Library.ByteStrings
import Confos.Library.Fallible
import Confos.Library.Machines
import Mathlib.Data.List.Nodup

/-!
# Staged profiles

`confos build` copies the directories given by `--profile-dir` into the
checkout, removes the copies when it ends, and sweeps at its start what an
interrupted build left behind.  The builds of one checkout are a machine whose
steps are the file operations under `mkosi.profiles`; a build can be killed
between any two of them.  The order in which a directory is listed, copied or
removed is not known, so each of these steps names the path it is about.
-/

namespace Confos.Image.StagedProfiles

open Confos.Library.ByteStrings
open Confos.Library.Machines

/-! ## Directory trees -/

inductive Node where
  | dir
  | file (content : Bytes) (mode : Nat)
  | link (target : String)
deriving DecidableEq, Repr

/-- The names from `mkosi.profiles` down. -/
abbrev Path := List String

/-- What is there at each path below `mkosi.profiles`. -/
abbrev Tree := Std.ExtTreeMap Path Node

/-- The marker of a staged directory. -/
def stagedProfileMarker : String := ".confos-staged-profile"

def markerFile : Node := .file [] 0o644

/-- The names listed by reading `mkosi.profiles`. -/
def rootNames (tree : Tree) : List String :=
  tree.keys.filterMap fun path =>
    match path with
    | [name] => some name
    | _ => none

/-- `is_file`; where a link leads to is not known. -/
def isFile (followsToFile : Bool) : Option Node → Bool
  | some (.file _ _) => true
  | some (.link _) => followsToFile
  | _ => false

def isEmptyDir (tree : Tree) (path : Path) : Bool :=
  tree.keys.all fun other => !path.isPrefixOf other || other = path

/-- One unlink or rmdir of a recursive removal. -/
def removeUnder (tree : Tree) (name : String) (path : Path) : Option Tree :=
  if path.head? = some name then
    match tree[path]? with
    | none => none
    | some .dir => if isEmptyDir tree path then some (tree.erase path) else none
    | some _ => some (tree.erase path)
  else
    none

/-! ## The directories to stage -/

/-- A directory given by `--profile-dir`: its base name and what it holds. -/
structure ProfileDir where
  path : String
  name : String
  -- whether `mkosi.conf` is a file
  hasConf : Bool
  -- what the checks for links and includes that lead outside return
  selfContained : Except String Unit
  entries : List (Path × Node)
  entries_nodup : (entries.map (·.1)).Nodup
  entries_nonempty : ∀ entry ∈ entries, entry.1 ≠ []
  entries_rooted :
    ∀ entry ∈ entries, entry.1.dropLast ≠ [] →
      (entry.1.dropLast, Node.dir) ∈ entries

def isSafeName (name : String) : Bool :=
  name ≠ "" &&
    name.toList.all fun char => char.isAlphanum || char = '-' || char = '_'

/-- The checks of one directory; `validated` are the names before it. -/
def checkProfileDir (tree : Tree) (validated : List String)
    (dir : ProfileDir) : Except String (List String) :=
  if isSafeName dir.name = false then
    .error s!"--profile-dir {dir.path} basename is not a valid mkosi profile name (want [A-Za-z0-9_-]+)"
  else if dir.hasConf = false then
    .error s!"--profile-dir has no mkosi.conf: {dir.path}"
  else if dir.name ∈ validated then
    .error s!"two --profile-dir arguments share the basename \"{dir.name}\"; the second ({dir.path}) would silently replace the first"
  else if tree[[dir.name]]? ≠ none then
    .error s!"--profile-dir {dir.path} collides with in-tree profile \"{dir.name}\" at mkosi/base/mkosi.profiles/{dir.name}"
  else
    dir.selfContained.map fun _ => validated ++ [dir.name]

def checkProfileDirs (tree : Tree) (dirs : List ProfileDir) :
    Except String (List String) :=
  dirs.foldlM (checkProfileDir tree) []

/-! ## The builds of a checkout -/

/-- Where a build is; `guards` are the names whose copies it will remove. -/
inductive Phase where
  | idle
  | sweeping (todo : List String)
  | sweepRemoving (name : String) (todo : List String)
  | checking
  | creating (dir : ProfileDir) (rest : List ProfileDir)
      (guards : List String)
  | marking (dir : ProfileDir) (rest : List ProfileDir)
      (guards : List String)
  | copying (dir : ProfileDir) (pending : List (Path × Node))
      (rest : List ProfileDir) (guards : List String)
  | staged (guards : List String)
  | dropping (guards : List String)
  | dropRemoving (name : String) (guards : List String)

inductive Problem where
  | refused (message : String)
  | copyFailed (path : Path)
deriving DecidableEq, Repr

structure Checkout where
  rootExists : Bool
  tree : Tree
  phase : Phase
  arguments : List ProfileDir
  profiles : List String
  problem : Option Problem

inductive Action where
  | start (arguments : List ProfileDir) (profiles listing : List String)
  | examine (followsToFile : Bool)
  | remove (path : Path)
  | check
  | createRoot
  | createTarget
  | mark
  | copyPart (path : Path) (content : Bytes)
  | unlinkOld (path : Path)
  | copyEntry (path : Path)
  | endCopy
  | finish
  | drop
  | kill

/-- The phase behind the staging of one directory. -/
def nextDir (rest : List ProfileDir) (guards : List String) : Phase :=
  match rest with
  | [] => .staged guards
  | dir :: rest => .creating dir rest (guards ++ [dir.name])

/-- Whether a copied node can take the place of what is there. -/
def Node.canReplace (node : Node) (present : Option Node) : Bool :=
  match node, present with
  | _, none => true
  | .dir, some .dir => true
  | .file _ _, some (.file _ _) => true
  | _, _ => false

def pushProfile (profiles : List String) (name : String) : List String :=
  if name ∈ profiles then profiles else profiles ++ [name]

/-- The steps of the sweep and of the removal of a copy. -/
def stepRemove (checkout : Checkout) (path : Path) : Option Checkout :=
  match checkout.phase with
  | .sweepRemoving name todo =>
      (removeUnder checkout.tree name path).map fun tree =>
        { checkout with
          tree
          phase :=
            if path = [name] then .sweeping todo
            else .sweepRemoving name todo }
  | .dropRemoving name guards =>
      (removeUnder checkout.tree name path).map fun tree =>
        { checkout with
          tree
          phase :=
            if path = [name] then .dropping guards
            else .dropRemoving name guards }
  | _ => none

/-- One entry of the listing: a marked directory is removed. -/
def stepExamine (checkout : Checkout) (followsToFile : Bool) :
    Option Checkout :=
  match checkout.phase with
  | .sweeping [] => some { checkout with phase := .checking }
  | .sweeping (name :: todo) =>
      some
        { checkout with
          phase :=
            if checkout.tree[[name]]? = some .dir ∧
                isFile followsToFile
                  checkout.tree[[name, stagedProfileMarker]]? = true then
              .sweepRemoving name todo
            else
              .sweeping todo }
  | _ => none

/-- All directories are checked before the first is staged. -/
def stepCheck (checkout : Checkout) : Option Checkout :=
  match checkout.phase with
  | .checking =>
      match checkProfileDirs checkout.tree checkout.arguments with
      | .error message =>
          some
            { checkout with
              phase := .idle, problem := some (.refused message) }
      | .ok _ =>
          some { checkout with phase := nextDir checkout.arguments [] }
  | _ => none

/-- The entry of `pending` at a path, once its directory is there. -/
def pendingAt (tree : Tree) (name : String)
    (pending : List (Path × Node)) (path : Path) : Option Node :=
  if tree[(name :: path).dropLast]? = some .dir then
    pending.lookup path
  else
    none

/-- The last operation on one entry of the copied directory. -/
def stepCopyEntry (checkout : Checkout) (path : Path) : Option Checkout :=
  match checkout.phase with
  | .copying dir pending rest guards =>
      match pendingAt checkout.tree dir.name pending path with
      | none => none
      | some node =>
          let target := dir.name :: path
          if node.canReplace checkout.tree[target]? then
            some
              { checkout with
                tree := checkout.tree.insert target node
                phase :=
                  .copying dir (pending.filter (·.1 ≠ path)) rest guards }
          else
            match node, checkout.tree[target]? with
            | .link _, some (.file _ _) => none
            | .link _, some (.link _) => none
            | _, _ =>
                some
                  { checkout with
                    phase := .dropping guards
                    problem := some (.copyFailed target) }
  | _ => none

/-- A file that is not copied to its end. -/
def stepCopyPart (checkout : Checkout) (path : Path) (content : Bytes) :
    Option Checkout :=
  match checkout.phase with
  | .copying dir pending _ _ =>
      match pendingAt checkout.tree dir.name pending path with
      | some (.file whole mode) =>
          if (Node.file whole mode).canReplace
              checkout.tree[dir.name :: path]? then
            some
              { checkout with
                tree :=
                  checkout.tree.insert (dir.name :: path)
                    (.file content mode) }
          else
            none
      | _ => none
  | _ => none

/-- What a copied link takes the place of is removed first. -/
def stepUnlinkOld (checkout : Checkout) (path : Path) : Option Checkout :=
  match checkout.phase with
  | .copying dir pending _ _ =>
      match pendingAt checkout.tree dir.name pending path,
          checkout.tree[dir.name :: path]? with
      | some (.link _), some (.file _ _) =>
          some
            { checkout with tree := checkout.tree.erase (dir.name :: path) }
      | some (.link _), some (.link _) =>
          some
            { checkout with tree := checkout.tree.erase (dir.name :: path) }
      | _, _ => none
  | _ => none

def step (checkout : Checkout) : Action → Option Checkout
  | .start arguments profiles listing =>
      match checkout.phase with
      | .idle =>
          if listing.Perm (rootNames checkout.tree) then
            some
              { checkout with
                phase := .sweeping listing
                arguments, profiles
                problem := none }
          else
            none
      | _ => none
  | .examine followsToFile => stepExamine checkout followsToFile
  | .remove path => stepRemove checkout path
  | .check => stepCheck checkout
  | .createRoot =>
      match checkout.phase with
      | .creating _ _ _ =>
          if checkout.rootExists then none
          else some { checkout with rootExists := true }
      | _ => none
  | .createTarget =>
      match checkout.phase with
      | .creating dir rest guards =>
          if checkout.rootExists then
            some
              { checkout with
                tree := checkout.tree.insert [dir.name] .dir
                phase := .marking dir rest guards }
          else
            none
      | _ => none
  | .mark =>
      match checkout.phase with
      | .marking dir rest guards =>
          some
            { checkout with
              tree :=
                checkout.tree.insert [dir.name, stagedProfileMarker]
                  markerFile
              phase := .copying dir dir.entries rest guards }
      | _ => none
  | .copyPart path content => stepCopyPart checkout path content
  | .unlinkOld path => stepUnlinkOld checkout path
  | .copyEntry path => stepCopyEntry checkout path
  | .endCopy =>
      match checkout.phase with
      | .copying dir [] rest guards =>
          some
            { checkout with
              profiles := pushProfile checkout.profiles dir.name
              phase := nextDir rest guards }
      | _ => none
  | .finish =>
      match checkout.phase with
      | .staged guards => some { checkout with phase := .dropping guards }
      | _ => none
  | .drop =>
      match checkout.phase with
      | .dropping [] => some { checkout with phase := .idle }
      | .dropping (name :: guards) =>
          some
            { checkout with
              phase :=
                if checkout.tree[[name]]? = none then .dropping guards
                else .dropRemoving name guards }
      | _ => none
  | .kill =>
      match checkout.phase with
      | .idle => none
      | _ => some { checkout with phase := .idle }

/-- A checkout in which no build has run. -/
def Checkout.clean (rootExists : Bool) (tree : Tree) : Checkout where
  rootExists
  tree
  phase := .idle
  arguments := []
  profiles := []
  problem := none

end Confos.Image.StagedProfiles
