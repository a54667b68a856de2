import Confos.Kernel.Worktree
import Mathlib.Data.Char
import Mathlib.Data.List.Lex

/-!
# `confos kernel`

The command hashes its inputs, takes the kernel of an earlier build when the
hashes are those in its manifest, and builds one otherwise.  Fetching and
extracting the source, configuring it and compiling it are programs of their
own that end as the schedule of outcomes says; what they print, the build log
and the directories that only they use are left out.
-/

namespace Confos.Kernel.Command

open Confos.Library.ByteStrings
open Confos.Library.Effects
open Confos.Library.Text
open Confos.Kernel.Version
open Confos.Kernel.Worktree

/-! ## Arguments and paths -/

def requiredFragment : String := "kernel/required.config"
def hardeningFragment : String := "kernel/hardening.config"
def cvmFragment : String := "kernel/confidential.config"
def randstructSeed : String := "kernel/randstruct.seed"
def defaultSigningCert : String := "kernel/module-signing.crt"
def baseSnapshotPath : String := "kernel/config-x86_64.snapshot"
def versionPath : String := "kernel/version"
def dsdtSource : String := "kernel/trusted-dsdt.asl"
def amlPatch : String := "kernel/patches/0001-acpi-trusted-aml.patch"
def mrPatch : String :=
  "kernel/patches/0002-sev-guest-measurement-registers.patch"
def toolsTreeConf : String := "mkosi/kernel-builder/mkosi.conf"

/-- The path of a file: its directory, empty for the current one, and name. -/
structure SourcePath where
  dir : String
  fileName : String
deriving DecidableEq, Repr

def joinPath (dir fileName : String) : String :=
  if dir = "" then fileName else dir ++ "/" ++ fileName

def SourcePath.path (source : SourcePath) : String :=
  joinPath source.dir source.fileName

structure KernelInputs where
  kernelConfigFragment : Option SourcePath := none
  moduleSigningCert : Option String := none
  kernelBuilderPackage : List String := []
deriving DecidableEq, Repr

structure KernelArgs where
  ensureTools : Bool := false
  force : Bool := false
  output : String := "output/kernel"
  kernelInputs : KernelInputs := {}
deriving DecidableEq, Repr

def KernelInputs.certPath (inputs : KernelInputs) : String :=
  inputs.moduleSigningCert.getD defaultSigningCert

/-- `file_stem`: the name without what follows its last dot. -/
def fileStem (name : List Char) : List Char :=
  match splitOnce '.' name.reverse with
  | none | some (_, []) => name
  | some (_, stem) => stem.reverse

/-- The snapshot of the resolved configuration, one for each fragment name. -/
def snapshotPath (fragment : Option SourcePath) : Except String String :=
  match fragment with
  | none => .ok baseSnapshotPath
  | some source =>
      let stem := fileStem source.fileName.toList
      if stem = [] ∨ stem.head? = some '.' then
        .error s!"--kernel-config-fragment has no usable file stem: {source.path}"
      else
        .ok
          (joinPath source.dir
            s!"config-x86_64-{String.ofList stem}.snapshot")

/-! ## Checks -/

/-- Each patch was audited on the pinned kernel. -/
def verifyVersion (patchPath : String) (version : String) : Program Unit := do
  let patch ← readText patchPath
  let supported ← MonadExcept.ofExcept (supportedVersion patch)
  ensure (version = supported)
    s!"{patchPath} supports Linux {supported}, got {version}; re-audit the patch's hooks, retarget it and update its {versionTrailer} trailer"

def pinnedVersion : Program KernelVersion := do
  let text ← readText versionPath
  let version ← MonadExcept.ofExcept (KernelVersion.parse text)
  verifyVersion amlPatch version.linuxVersion
  verifyVersion mrPatch version.linuxVersion
  return version

def verifyFragment (fragment : Option SourcePath) : Program Unit := do
  match fragment with
  | none => return ()
  | some source =>
      let found ← inputExists source.path
      ensure (found = true)
        s!"--kernel-config-fragment path not found: {source.path}"

/-- The text of a certificate; unreadable text counts as empty. -/
def certText (bytes : Bytes) : List Char :=
  match utf8Text? bytes with
  | some text => text.toList
  | none => []

def verifySigningCert (certPath : String) : Program Unit := do
  let found ← inputExists certPath
  ensure (found = true)
    s!"module signing certificate not found: {certPath} — pass --module-signing-cert, or generate the default per docs/module-signing.md"
  let bytes ← readInput certPath
  ensure
    (containsText "-----BEGIN CERTIFICATE-----".toList (certText bytes) = true)
    s!"{certPath} is not a PEM certificate (docs/module-signing.md)"

section

variable (sha256 : Bytes → Block 32)

/-! ## The tools tree -/

def pathKey (path : String) : List (List Char) :=
  path.toList.splitOn '/'

/-- The order in which the files of the tools tree are hashed. -/
def sortPaths (paths : List String) : List String :=
  paths.insertionSort fun left right => pathKey left ≤ pathKey right

/-- One line for each file. -/
def hashFiles (files : List (String × Bytes)) : String :=
  hexHash sha256
    (files.flatMap fun file =>
      utf8Bytes file.1 ++ utf8Bytes ":" ++
        utf8Bytes (hexHash sha256 file.2) ++ utf8Bytes "\n")

/-- `hash_tree_inputs`: one line for each file, in the order of the paths. -/
def hashTreeInputs (files : List (String × Bytes)) : String :=
  hashFiles sha256
    (files.insertionSort fun left right => pathKey left.1 ≤ pathKey right.1)

/-- The digest of the tools tree's own inputs. -/
def treeDigest (conf : Bytes) (inputs : Inputs) : String :=
  hashTreeInputs sha256 ((toolsTreeConf, conf) :: inputs.sandboxFiles)

/-- Read files one after the other. -/
def readFiles (paths : List String) : Program (List (String × Bytes)) :=
  paths.mapM fun path => do return (path, ← readInput path)

/-- The files of the tools tree: first what they are, then each in its turn. -/
def readTreeInputs : Program (List (String × Bytes)) := do
  interfere
  let walked := (← get).checkout.inputs.sandboxFiles.map (·.1)
  readFiles (sortPaths (toolsTreeConf :: walked))

def toolsTreeInputsDigest : Program String := do
  return hashFiles sha256 (← readTreeInputs)

/-- What tells one tools tree from another. -/
def stampKey (digest : String) (packages : List String) : String :=
  digest ++ "\n" ++ String.intercalate "," packages

/-- Build the tools tree; its stamp goes first and comes back last. -/
def rebuildToolsTree (key : String) (packages : List String) :
    Program Unit := do
  modify fun world => world.setTools world.checkout.tree none
  let digest ← toolsTreeInputsDigest sha256
  let world ← get
  if world.outcomes.mkosi then
    modify (·.setTools (some (stampKey digest packages)) (some key))
  else
    modify (·.setTools none none)
    throw "mkosi failed"

/-- Keep the tools tree if its stamp is that of the present inputs. -/
def refreshToolsTree (force : Bool) (key : String) (packages : List String) :
    Program Unit := do
  let world ← get
  if force = true ∨ world.checkout.tree = none ∨
      world.checkout.stamp ≠ some key then
    rebuildToolsTree sha256 key packages
  else
    return ()

def builtToolsTree : Program String := do
  match (← get).checkout.tree with
  | some tree => return tree
  | none => throw "mkosi did not produce mkosi/kernel-builder/mkosi.output/image"

def ensureToolsTree (force : Bool) (packages : List String) :
    Program String := do
  let digest ← toolsTreeInputsDigest sha256
  refreshToolsTree sha256 force (stampKey digest packages) packages
  builtToolsTree

/-! ## The fingerprint -/

def hashInput (path : String) : Program String := do
  return hexHash sha256 (← readInput path)

/-- The hash of the caller's fragment, empty without one. -/
def hashFragment (fragment : Option SourcePath) : Program String :=
  match fragment with
  | some source => hashInput sha256 source.path
  | none => pure ""

/-- The hash of the snapshot, empty before a build has written one. -/
def hashSnapshot (snapshot : String) : Program String := do
  if ← inputExists snapshot then hashInput sha256 snapshot else return ""

/-- `compute_fingerprint`. -/
def computeFingerprint
    (version : KernelVersion) (fragment : Option SourcePath)
    (certPath snapshot : String) : Program Fingerprint := do
  let requiredConfigSha256 ← hashInput sha256 requiredFragment
  let hardeningConfigSha256 ← hashInput sha256 hardeningFragment
  let confidentialConfigSha256 ← hashInput sha256 cvmFragment
  let moduleSigningCertSha256 ← hashInput sha256 certPath
  let randstructSeedSha256 ← hashInput sha256 randstructSeed
  let trustedDsdtSha256 ← hashInput sha256 dsdtSource
  let trustedAmlPatchSha256 ← hashInput sha256 amlPatch
  let snpMrPatchSha256 ← hashInput sha256 mrPatch
  let kernelExtraConfigSha256 ← hashFragment sha256 fragment
  let snapshotConfigSha256 ← hashSnapshot sha256 snapshot
  let toolsTreeDigest ← toolsTreeInputsDigest sha256
  return {
    linuxVersion := version.linuxVersion
    tarballSha256 := version.tarballSha256
    requiredConfigSha256
    hardeningConfigSha256
    confidentialConfigSha256
    kernelExtraConfigSha256
    snapshotConfigSha256
    moduleSigningCertSha256
    randstructSeedSha256
    trustedDsdtSha256
    trustedAmlPatchSha256
    snpMrPatchSha256
    toolsTreeDigest }

/-- The snapshot is the one input that the build itself rewrites. -/
def verifyInputsUnchanged (staged finished : Fingerprint) : Program Unit :=
  ensure
    (finished =
      { staged with
        snapshotConfigSha256 := finished.snapshotConfigSha256 })
    "kernel inputs changed during the build; rerun `confos kernel`"

/-! ## The cache -/

inductive CacheCheck where
  | hit
  | miss
deriving DecidableEq, Repr

/-- The manifest and the kernel of an earlier build, unless a run is forced. -/
def earlierBuild (args : KernelArgs) (output : KernelOutput) :
    Option (KernelManifest × Bytes) :=
  if args.force then
    none
  else do
    let manifest ← output.manifest
    let vmlinuz ← output.vmlinuz
    return (manifest, vmlinuz)

/-- Whether the kernel of an earlier build is taken. -/
def checkCache (args : KernelArgs) (staged : Fingerprint) :
    Program CacheCheck := do
  match earlierBuild args ((← get).checkout.outputs args.output) with
  | none => return .miss
  | some (cached, vmlinuz) =>
      if cached.inputs = staged then
        ensure
          (eqIgnoreCase (hexHash sha256 vmlinuz).toList
            cached.vmlinuzSha256.toList = true)
          "kernel artifact corrupted (sha256 mismatch). Re-run with --force."
        return .hit
      else
        return .miss

/-- What a run knows before it decides whether to build. -/
structure Staging where
  version : KernelVersion
  snapshot : String
  staged : Fingerprint
deriving DecidableEq, Repr

/-- Everything up to the decision, and the decision. -/
def consultCache (args : KernelArgs) : Program (Staging × CacheCheck) := do
  let version ← pinnedVersion
  let snapshot ←
    MonadExcept.ofExcept (snapshotPath args.kernelInputs.kernelConfigFragment)
  verifyFragment args.kernelInputs.kernelConfigFragment
  verifySigningCert args.kernelInputs.certPath
  let staged ←
    computeFingerprint sha256 version args.kernelInputs.kernelConfigFragment
      args.kernelInputs.certPath snapshot
  let found ← checkCache sha256 args staged
  return ({ version, snapshot, staged }, found)

/-! ## The build -/

/-- The seed, trimmed, is 32 bytes in hexadecimal. -/
def isSeed (text : List Char) : Bool :=
  let seed := trim text
  seed.length = 64 &&
    seed.all fun char =>
      char.isDigit || ('a' ≤ char && char ≤ 'f') ||
        ('A' ≤ char && char ≤ 'F')

def readFragment (fragment : Option SourcePath) :
    Program (Option Bytes) := do
  match fragment with
  | some source => return some (← readInput source.path)
  | none => return none

/-- What the build reads after the tools tree, in the order of the source. -/
def readCompileInputs
    (version : KernelVersion) (fragment : Option SourcePath)
    (certPath toolsTree : String) : Program CompileInputs := do
  let world ← get
  ensure (world.outcomes.source = true) "kernel source could not be prepared"
  let dsdt ← readInput dsdtSource
  let patch ← readInput amlPatch
  let registers ← readInput mrPatch
  let seed ← readInput randstructSeed
  ensure (isSeed (certText seed) = true)
    s!"{randstructSeed} must be 64 hex chars (32 bytes)"
  let signingCert ← readInput certPath
  let required ← readInput requiredFragment
  let hardening ← readInput hardeningFragment
  let confidential ← readInput cvmFragment
  let fragment ← readFragment fragment
  return {
    version, required, hardening, confidential, fragment
    signingCert, seed, dsdt
    amlPatch := patch
    mrPatch := registers
    toolsTree }

/-- The configuration as the kernel's own tools resolved it. -/
def updateSnapshot (snapshot : String) : Program Unit := do
  match (← get).outcomes.resolved with
  | none => throw "kernel configuration failed"
  | some resolved => writeInput snapshot resolved

/-- Compile, and copy the kernel into the output directory. -/
def compile (args : KernelArgs) (inputs : CompileInputs) :
    Program BuildRecord := do
  match (← get).outcomes.compile with
  | .failed => throw "kernel compile failed"
  | .torn left =>
      modify (·.setVmlinuz args.output left)
      throw "copying bzImage failed"
  | .built vmlinuz =>
      let record : BuildRecord :=
        { inputs, packages := args.kernelInputs.kernelBuilderPackage,
          vmlinuz }
      modify fun world =>
        (world.setVmlinuz args.output vmlinuz).record record
      return record

/-- Everything before the manifest is written. -/
def buildKernel (args : KernelArgs) (staging : Staging) :
    Program (BuildRecord × Fingerprint) := do
  let toolsTree ←
    ensureToolsTree sha256 args.force
      args.kernelInputs.kernelBuilderPackage
  let inputs ←
    readCompileInputs staging.version
      args.kernelInputs.kernelConfigFragment args.kernelInputs.certPath
      toolsTree
  updateSnapshot staging.snapshot
  let record ← compile args inputs
  let finished ←
    computeFingerprint sha256 staging.version
      args.kernelInputs.kernelConfigFragment args.kernelInputs.certPath
      staging.snapshot
  verifyInputsUnchanged staging.staged finished
  return (record, finished)

/-- The manifest of a build, over the kernel as it is in the directory. -/
def finishOutput
    (version : KernelVersion) (record : BuildRecord)
    (finished : Fingerprint) (output : KernelOutput) : KernelOutput :=
  { output with
    manifest :=
      output.vmlinuz.map fun vmlinuz =>
        { version := 1
          linuxVersion := version.linuxVersion
          inputs := finished
          vmlinuzSha256 := hexHash sha256 vmlinuz }
    writer := some record }

/-- What the last line of a run says. -/
inductive RunOutcome where
  | cacheHit
  | built
deriving DecidableEq, Repr

def reuseKernel (args : KernelArgs) : Program RunOutcome :=
  if args.ensureTools then do
    let _ ←
      ensureToolsTree sha256 false args.kernelInputs.kernelBuilderPackage
    return .cacheHit
  else
    return .cacheHit

def rebuildKernel (args : KernelArgs) (staging : Staging) :
    Program RunOutcome := do
  let (record, finished) ← buildKernel sha256 args staging
  modify fun world =>
    world.setOutput args.output
      (finishOutput sha256 staging.version record finished
        (world.checkout.outputs args.output))
  return .built

def run (args : KernelArgs) : Program RunOutcome := do
  let (staging, found) ← consultCache sha256 args
  match found with
  | .hit => reuseKernel sha256 args
  | .miss => rebuildKernel sha256 args staging

end

end Confos.Kernel.Command
