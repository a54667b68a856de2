import Confos.Kernel.Version
import Confos.Library.ByteStrings
import Confos.Library.Effects
import Mathlib.Data.List.Sort

/-!
# The checkout a kernel build works in

The input files of the kernel build, the tools tree with its stamp, and the
output directories with their kernels and manifests.  Someone may change the
input files between any two operations of a command; which changes those are
is a schedule that the command works through.
-/

namespace Confos.Kernel.Worktree

open Confos.Library.ByteStrings
open Confos.Library.Effects
open Confos.Kernel.Version

/-! ## Inputs -/

def toolsTreeSandbox : String := "mkosi/kernel-builder/mkosi.sandbox"

/-- The input files by path, and the paths of those in `mkosi.sandbox`. -/
structure Inputs where
  files : String → Option Bytes := fun _ => none
  sandbox : List String := []

/-- The files in `mkosi.sandbox` with their contents. -/
def Inputs.sandboxFiles (inputs : Inputs) : List (String × Bytes) :=
  inputs.sandbox.filterMap fun path =>
    (inputs.files path).map fun bytes => (path, bytes)

def Inputs.write (inputs : Inputs) (path : String) (bytes : Bytes) : Inputs where
  files := Function.update inputs.files path (some bytes)
  sandbox :=
    if path.startsWith (toolsTreeSandbox ++ "/") ∧ path ∉ inputs.sandbox then
      path :: inputs.sandbox
    else
      inputs.sandbox

/-- What reaches a compile; the tools tree is told by its stamp. -/
structure CompileInputs where
  version : KernelVersion
  required : Bytes
  hardening : Bytes
  confidential : Bytes
  fragment : Option Bytes
  signingCert : Bytes
  seed : Bytes
  dsdt : Bytes
  amlPatch : Bytes
  mrPatch : Bytes
  toolsTree : String
deriving DecidableEq, Repr

/-- The file contents among them. -/
def CompileInputs.contents (inputs : CompileInputs) : List Bytes :=
  [inputs.required, inputs.hardening, inputs.confidential,
    inputs.signingCert, inputs.seed, inputs.dsdt, inputs.amlPatch,
    inputs.mrPatch] ++ inputs.fragment.toList

/-! ## Outputs -/

/-- The hashes of everything that decides the output of a build. -/
structure Fingerprint where
  linuxVersion : String
  tarballSha256 : String
  requiredConfigSha256 : String
  hardeningConfigSha256 : String
  confidentialConfigSha256 : String
  kernelExtraConfigSha256 : String
  snapshotConfigSha256 : String
  moduleSigningCertSha256 : String
  randstructSeedSha256 : String
  trustedDsdtSha256 : String
  trustedAmlPatchSha256 : String
  snpMrPatchSha256 : String
  toolsTreeDigest : String
deriving DecidableEq, Repr

structure KernelManifest where
  version : Nat
  linuxVersion : String
  inputs : Fingerprint
  vmlinuzSha256 : String
deriving DecidableEq, Repr

/-- What one compile was given and what it made; no command reads this. -/
structure BuildRecord where
  inputs : CompileInputs
  packages : List String
  vmlinuz : Bytes
deriving DecidableEq, Repr

/-- One output directory; `writer` is the build its manifest is from. -/
structure KernelOutput where
  vmlinuz : Option Bytes := none
  manifest : Option KernelManifest := none
  writer : Option BuildRecord := none
deriving DecidableEq, Repr

/--
A checkout between two commands.  The tools tree stands for the stamp of the
inputs and packages it was built from, and `builds` records every compile.
-/
structure Checkout where
  inputs : Inputs := {}
  tree : Option String := none
  stamp : Option String := none
  outputs : String → KernelOutput := fun _ => {}
  builds : List BuildRecord := []

namespace Checkout

def setOutput (checkout : Checkout) (name : String) (output : KernelOutput) :
    Checkout :=
  { checkout with outputs := Function.update checkout.outputs name output }

theorem setOutput_outputs_self
    (checkout : Checkout) (name : String) (output : KernelOutput) :
    (checkout.setOutput name output).outputs name = output :=
  Function.update_self ..

theorem setOutput_outputs_of_ne
    (checkout : Checkout) {name other : String} (output : KernelOutput)
    (different : other ≠ name) :
    (checkout.setOutput name output).outputs other =
      checkout.outputs other :=
  Function.update_of_ne different ..

end Checkout

/-! ## Operations -/

/-- How a compile ends: before it copies its kernel, during, or with it. -/
inductive CompileOutcome where
  | failed
  | torn (left : Bytes)
  | built (vmlinuz : Bytes)
deriving DecidableEq, Repr

/-- How the programs end that a build calls. -/
structure ToolOutcomes where
  mkosi : Bool := true
  source : Bool := true
  resolved : Option Bytes := some []
  compile : CompileOutcome
deriving DecidableEq, Repr

/-- A checkout, the changes to come, and the outcomes of the programs called. -/
structure World where
  checkout : Checkout
  edits : List (Option Inputs) := []
  outcomes : ToolOutcomes

abbrev Program := EStateM String World

def World.setInputs (world : World) (inputs : Inputs) : World :=
  { world with checkout := { world.checkout with inputs } }

def World.setOutput (world : World) (name : String) (output : KernelOutput) :
    World :=
  { world with checkout := world.checkout.setOutput name output }

def World.setVmlinuz (world : World) (name : String) (vmlinuz : Bytes) :
    World :=
  world.setOutput name
    { world.checkout.outputs name with vmlinuz := some vmlinuz }

def World.record (world : World) (record : BuildRecord) : World :=
  { world with
    checkout :=
      { world.checkout with builds := world.checkout.builds ++ [record] } }

def World.setTools (world : World) (tree stamp : Option String) : World :=
  { world with checkout := { world.checkout with tree, stamp } }

/-- Let someone change the input files. -/
def interfere : Program Unit :=
  modify fun world =>
    match world.edits with
    | [] => world
    | none :: edits => { world with edits }
    | some inputs :: edits => { world.setInputs inputs with edits }

def readInput (path : String) : Program Bytes := do
  interfere
  match (← get).checkout.inputs.files path with
  | some bytes => return bytes
  | none => throw s!"failed to open file {path}"

/-- Read a file that has to be valid UTF-8. -/
def readText (path : String) : Program (List Char) := do
  let bytes ← readInput path
  match utf8Text? bytes with
  | some text => return text.toList
  | none => throw s!"failed to read from file {path}"

def inputExists (path : String) : Program Bool := do
  interfere
  return ((← get).checkout.inputs.files path).isSome

def writeInput (path : String) (bytes : Bytes) : Program Unit :=
  modify fun world =>
    world.setInputs (world.checkout.inputs.write path bytes)

/-! ## A checkout nobody changes -/

/-- Nobody changes an input file from here on. -/
def Quiet (world : World) : Prop :=
  world.edits = []

theorem interfere_of_quiet {world : World} (quiet : Quiet world) :
    interfere world = .ok () world := by
  rcases world with ⟨checkout, edits, outcomes⟩
  cases quiet
  rfl

section

variable {world after : World}

theorem readInput_eq_ok
    {path : String} {bytes : Bytes} (quiet : Quiet world)
    (ran : readInput path world = .ok bytes after) :
    world.checkout.inputs.files path = some bytes ∧ after = world := by
  rcases bind_eq_ok.1 ran with ⟨_, here, waited, reading⟩
  rw [interfere_of_quiet quiet] at waited
  cases waited
  rcases bind_eq_ok.1 reading with ⟨current, there, got, returning⟩
  cases got
  cases found : world.checkout.inputs.files path with
  | none =>
      simp only [found] at returning
      exact (throw_ne_ok returning).elim
  | some contents =>
      simp only [found] at returning
      rcases pure_eq_ok.1 returning with ⟨rfl, rfl⟩
      exact ⟨rfl, rfl⟩

theorem readText_eq_ok
    {path : String} {text : List Char} (quiet : Quiet world)
    (ran : readText path world = .ok text after) :
    ∃ bytes decoded,
      world.checkout.inputs.files path = some bytes ∧
        utf8Text? bytes = some decoded ∧ decoded.toList = text ∧
          after = world := by
  rcases bind_eq_ok.1 ran with ⟨bytes, here, read, returning⟩
  rcases readInput_eq_ok quiet read with ⟨found, rfl⟩
  cases decoded : utf8Text? bytes with
  | none =>
      simp only [decoded] at returning
      exact (throw_ne_ok returning).elim
  | some valid =>
      simp only [decoded] at returning
      rcases pure_eq_ok.1 returning with ⟨rfl, rfl⟩
      exact ⟨bytes, valid, found, decoded, rfl, rfl⟩

theorem inputExists_eq_ok
    {path : String} {found : Bool} (quiet : Quiet world)
    (ran : inputExists path world = .ok found after) :
    found = (world.checkout.inputs.files path).isSome ∧ after = world := by
  rcases bind_eq_ok.1 ran with ⟨_, here, waited, reading⟩
  rw [interfere_of_quiet quiet] at waited
  cases waited
  cases reading
  exact ⟨rfl, rfl⟩

end

end Confos.Kernel.Worktree
