import Confos.Image.StagedProfiles
import Confos.Library.Text

/-!
# The overlay of a build

What a build adds to an image is staged under `mkosi.local`, where mkosi reads
it: the values of `--sync-input`, the tree of `--extra`, the cloud-init
configuration and the kernel.  All builds of a checkout share the directory,
and so does the operator, who fetches there what a profile needs, and the
scripts that mkosi runs.  A lock lets one build in at a time.  One that ends
removes the directory; one that is killed leaves what it staged, and the next
build clears no more of it than the values of `--sync-input`.
-/

namespace Confos.Image.BuildOverlay

open Confos.Image.StagedProfiles (Node Path isSafeName)
open Confos.Library.ByteStrings
open Confos.Library.Text

/-! ## Arguments -/

/-- A `--sync-input NAME=VALUE` pair. -/
structure SyncInput where
  name : String
  value : String
  name_safe : isSafeName name = true
deriving DecidableEq

def parseSyncInput (spec : String) : Except String SyncInput :=
  match splitOnce '=' spec.toList with
  | none => .error s!"wants NAME=VALUE, got {spec.quote}"
  | some (name, value) =>
      if safe : isSafeName (String.ofList name) = true then
        .ok
          { name := String.ofList name
            value := String.ofList value
            name_safe := safe }
      else
        .error s!"name {(String.ofList name).quote} must match [A-Za-z0-9_-]+"

structure SourceFile where
  content : Bytes
  mode : Nat
deriving DecidableEq

/-- The kernel that the build is given by its cache. -/
structure Kernel where
  linuxVersion : String
  vmlinuz : SourceFile
deriving DecidableEq

structure BuildArgs where
  syncInputs : List SyncInput
  -- what `--extra` holds, each directory before what is in it
  extra : Option (List (Path × Node))
  cloudInit : Option SourceFile
  kernel : Kernel
deriving DecidableEq

/-! ## File operations -/

/-- Who put an entry there, which no build can see. -/
inductive Owner where
  | operator
  | build (id : Nat)
  /-- The scripts that mkosi runs for a build. -/
  | hook (id : Nat)
deriving DecidableEq, Repr

structure Entry where
  node : Node
  owner : Owner
deriving DecidableEq, Repr

/-- What is there at each path from `mkosi.local` down. -/
abbrev Tree := Std.ExtTreeMap Path Entry

inductive Op where
  | makeDir (path : Path)
  | copy (path : Path) (content : Bytes) (mode : Nat)
  | write (path : Path) (content : Bytes)
  | link (path : Path) (target : String)
deriving DecidableEq, Repr

def Op.path : Op → Path
  | .makeDir path => path
  | .copy path _ _ => path
  | .write path _ => path
  | .link path _ => path

def nodeAt (tree : Tree) (path : Path) : Option Node :=
  tree[path]?.map Entry.node

/-- The directory that a path is in is there. -/
def hasParent (tree : Tree) (path : Path) : Bool :=
  path = [] || nodeAt tree path.dropLast = some .dir

/-- What an operation makes of the entry that is there. -/
def Op.result (op : Op) (present : Option Node) : Option Node :=
  match op, present with
  | .makeDir _, none => some .dir
  | .makeDir _, some .dir => some .dir
  | .copy _ content mode, none => some (.file content mode)
  | .copy _ content mode, some (.file _ _) => some (.file content mode)
  | .write _ content, none => some (.file content 0o644)
  | .write _ content, some (.file _ mode) => some (.file content mode)
  | .link _ target, none => some (.link target)
  | .link _ target, some (.file _ _) => some (.link target)
  | .link _ target, some (.link _) => some (.link target)
  | _, _ => none

/-- An operation that goes through; a directory that is there stays as it is. -/
def perform (tree : Tree) (owner : Owner) (op : Op) : Option Tree :=
  if hasParent tree op.path then
    (op.result (nodeAt tree op.path)).map fun node =>
      if nodeAt tree op.path = some .dir then tree
      else tree.insert op.path { node, owner }
  else
    none

/--
The part of an operation that can be there without the rest: some other
content, or nothing where a link will be.
-/
def attempt (tree : Tree) (owner : Owner) (op : Op) (content : Bytes) :
    Option Tree :=
  match op with
  | .makeDir _ => none
  | .copy path _ mode => perform tree owner (.copy path content mode)
  | .write path _ => perform tree owner (.write path content)
  | .link path target =>
      (perform tree owner (.link path target)).map fun _ => tree.erase path

/-- One unlink or rmdir of a recursive removal. -/
def removeAt (tree : Tree) (path : Path) : Option Tree :=
  match nodeAt tree path with
  | none => none
  | some .dir =>
      if tree.keys.all fun other => !path.isPrefixOf other || other = path then
        some (tree.erase path)
      else
        none
  | some _ => some (tree.erase path)

/-! ## What a build stages -/

def createDirAll (path : Path) : List Op :=
  path.inits.map .makeDir

def syncInputDir : String := ".confos-sync-inputs"

/-- At or below the directory of the values of `--sync-input`. -/
def isSyncPath (path : Path) : Bool :=
  [syncInputDir].isPrefixOf path

def writeSyncInput (input : SyncInput) : Op :=
  .write [syncInputDir, input.name] (utf8Bytes (input.value ++ "\n"))

/-- `write_sync_inputs`, once what was left there is removed. -/
def writeSyncInputs (inputs : List SyncInput) : List Op :=
  if inputs.isEmpty then
    []
  else
    createDirAll [syncInputDir] ++ inputs.map writeSyncInput

def mkosiExtra : Path := ["mkosi.extra"]

def copyEntry (dst : Path) (entry : Path × Node) : Op :=
  match entry.2 with
  | .dir => .makeDir (dst ++ entry.1)
  | .file content mode => .copy (dst ++ entry.1) content mode
  | .link target => .link (dst ++ entry.1) target

def copyTree (dst : Path) (entries : List (Path × Node)) : List Op :=
  createDirAll dst ++ entries.map (copyEntry dst)

def seedDir : Path :=
  mkosiExtra ++ ["var", "lib", "cloud", "seed", "nocloud"]

def injectCloudInit (userData : SourceFile) : List Op :=
  createDirAll seedDir ++
    [.copy (seedDir ++ ["user-data"]) userData.content userData.mode,
      .write (seedDir ++ ["meta-data"])
        (utf8Bytes "instance-id: confos-sealed\nlocal-hostname: confos\n")]

def stagedKernelDir (kernel : Kernel) : Path :=
  mkosiExtra ++ ["usr", "lib", "modules", kernel.linuxVersion]

def stageKernel (kernel : Kernel) : List Op :=
  createDirAll (stagedKernelDir kernel) ++
    [.copy (stagedKernelDir kernel ++ ["vmlinuz"]) kernel.vmlinuz.content
      kernel.vmlinuz.mode]

/-- What a build puts into the overlay of the image, in its order. -/
def stageOverlay (args : BuildArgs) : List Op :=
  createDirAll mkosiExtra ++
    (args.extra.map (copyTree mkosiExtra)).getD [] ++
      (args.cloudInit.map injectCloudInit).getD [] ++ stageKernel args.kernel

/-! ## The builds of a checkout -/

inductive Ending where
  /-- Another build had the lock. -/
  | refused
  /-- Before it was to remove the overlay. -/
  | failed
  | clean
  /-- The overlay could not be removed, which no build reports. -/
  | gaveUp
  | killed
  /-- Killed while mkosi ran, which goes on. -/
  | orphaned
deriving DecidableEq, Repr

inductive Phase where
  | waiting
  | clearing
  | preparing (todo : List Op)
  | staging (todo : List Op)
  | mkosi
  | removing
  | ended (ending : Ending)
deriving DecidableEq, Repr

/-- Between taking the lock and the end. -/
def Phase.isRunning : Phase → Bool
  | .waiting => false
  | .ended _ => false
  | _ => true

structure Build where
  args : BuildArgs
  phase : Phase
deriving DecidableEq

structure Checkout where
  tree : Tree
  lock : Option Nat
  builds : Nat → Option Build

inductive Move where
  | lock
  | remove (path : Path)
  | perform
  | attempt (content : Bytes)
  | next
  | fail
  | hook (op : Op)
  | kill

inductive Action where
  | start (id : Nat) (args : BuildArgs)
  /-- The operator puts something there, not among the `--sync-input` files. -/
  | fetch (op : Op)
  | turn (id : Nat) (move : Move)

/-- What a build leaves of the overlay and the lock, and where it is then. -/
structure Outcome where
  tree : Tree
  lock : Option Nat
  phase : Phase

section

variable (checkout : Checkout) (id : Nat) (build : Build)

def lockCheckout : Option Outcome :=
  match build.phase with
  | .waiting =>
      match checkout.lock with
      | none =>
          some
            { tree := checkout.tree, lock := some id, phase := .clearing }
      | some holder =>
          some
            { tree := checkout.tree
              lock := some holder
              phase := .ended .refused }
  | _ => none

def stepRemove (path : Path) : Option Outcome :=
  match build.phase with
  | .clearing =>
      if isSyncPath path && nodeAt checkout.tree [syncInputDir] = some .dir then
        (removeAt checkout.tree path).map fun tree =>
          { tree, lock := checkout.lock, phase := .clearing }
      else
        none
  | .removing =>
      if nodeAt checkout.tree [] = some .dir then
        (removeAt checkout.tree path).map fun tree =>
          { tree, lock := checkout.lock, phase := .removing }
      else
        none
  | _ => none

def stepPerform : Option Outcome :=
  match build.phase with
  | .preparing (op :: todo) =>
      (perform checkout.tree (.build id) op).map fun tree =>
        { tree, lock := checkout.lock, phase := .preparing todo }
  | .staging (op :: todo) =>
      (perform checkout.tree (.build id) op).map fun tree =>
        { tree, lock := checkout.lock, phase := .staging todo }
  | _ => none

def stepAttempt (content : Bytes) : Option Outcome :=
  match build.phase with
  | .preparing (op :: _) | .staging (op :: _) =>
      (attempt checkout.tree (.build id) op content).map fun tree =>
        { tree, lock := checkout.lock, phase := build.phase }
  | _ => none

/-- The end of a phase. -/
def stepNext : Option Outcome :=
  match build.phase with
  | .clearing =>
      if checkout.tree[[syncInputDir]]? = none then
        some
          { tree := checkout.tree
            lock := checkout.lock
            phase := .preparing (writeSyncInputs build.args.syncInputs) }
      else
        none
  | .preparing [] =>
      some
        { tree := checkout.tree
          lock := checkout.lock
          phase := .staging (stageOverlay build.args) }
  | .staging [] =>
      some
        { tree := checkout.tree, lock := checkout.lock, phase := .mkosi }
  | .mkosi =>
      some
        { tree := checkout.tree, lock := checkout.lock, phase := .removing }
  | .removing =>
      -- the lock is the last thing that a build lets go
      if checkout.tree[([] : Path)]? = none then
        some
          { tree := checkout.tree, lock := none, phase := .ended .clean }
      else
        none
  | _ => none

/-- Anything that goes wrong; what is behind the overlay's guard removes it. -/
def stepFail : Option Outcome :=
  match build.phase with
  | .waiting =>
      some
        { tree := checkout.tree
          lock := checkout.lock
          phase := .ended .failed }
  | .clearing | .preparing _ =>
      some { tree := checkout.tree, lock := none, phase := .ended .failed }
  | .staging _ | .mkosi =>
      some
        { tree := checkout.tree, lock := checkout.lock, phase := .removing }
  | .removing =>
      some { tree := checkout.tree, lock := none, phase := .ended .gaveUp }
  | .ended _ => none

def stepHook (op : Op) : Option Outcome :=
  match build.phase with
  | .mkosi | .ended .orphaned =>
      if isSyncPath op.path then
        none
      else
        (perform checkout.tree (.hook id) op).map fun tree =>
          { tree, lock := checkout.lock, phase := build.phase }
  | _ => none

def stepKill : Option Outcome :=
  match build.phase with
  | .mkosi =>
      some { tree := checkout.tree, lock := none, phase := .ended .orphaned }
  | .clearing | .preparing _ | .staging _ | .removing =>
      some { tree := checkout.tree, lock := none, phase := .ended .killed }
  | _ => none

def stepBuild : Move → Option Outcome
  | .lock => lockCheckout checkout id build
  | .remove path => stepRemove checkout build path
  | .perform => stepPerform checkout id build
  | .attempt content => stepAttempt checkout id build content
  | .next => stepNext checkout build
  | .fail => stepFail checkout build
  | .hook op => stepHook checkout id build op
  | .kill => stepKill checkout build

end

def step (checkout : Checkout) : Action → Option Checkout
  | .start id args =>
      match checkout.builds id with
      | none =>
          some
            { checkout with
              builds :=
                Function.update checkout.builds id
                  (some { args, phase := .waiting }) }
      | some _ => none
  | .fetch op =>
      if isSyncPath op.path then
        none
      else
        (perform checkout.tree .operator op).map fun tree =>
          { checkout with tree }
  | .turn id move =>
      match checkout.builds id with
      | none => none
      | some build =>
          (stepBuild checkout id build move).map fun outcome =>
            { tree := outcome.tree
              lock := outcome.lock
              builds :=
                Function.update checkout.builds id
                  (some { build with phase := outcome.phase }) }

/-- A checkout in which no build has run. -/
def Checkout.clean (tree : Tree) : Checkout where
  tree
  lock := none
  builds _ := none

end Confos.Image.BuildOverlay
