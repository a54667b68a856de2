import Confos.Image.Files
import Mathlib.Data.List.Sort

/-!
# `confos igvm`

The command derives IGVM images of further vCPU counts from a sealed
directory.  It checks that the firmware and the UKI are the recorded ones,
keeps an image whose file still has its recorded hash, builds the others, and
writes the manifest last.  The lines it prints are left out.
-/

namespace Confos.Image.IgvmCommand

open Confos.Library.ByteStrings
open Confos.Library.Effects
open Confos.Igvm.Build
open Confos.Image.Manifest
open Confos.Image.Files

/-- The arguments; at least one vCPU count is required on the command line. -/
structure IgvmArgs where
  dir : String
  smp : List UInt32
  firmware : String
  smp_nonempty : smp ≠ []

/-- Replace the entry of the same vCPU count, or append. -/
def upsertVariant (variant : SnpVariant) : List SnpVariant → List SnpVariant
  | [] => [variant]
  | existing :: rest =>
      if existing.smp = variant.smp then
        variant :: rest
      else
        existing :: upsertVariant variant rest

section

variable (tools : Tools)

/-- The recorded firmware is the supplied one, or nothing depends on it yet. -/
def checkFirmware (build : BuildManifest) (firmwareHash : String) :
    Program Unit :=
  match build.inputs.firmware with
  | some recorded =>
      ensure (recorded.sha256 = firmwareHash)
        "SNP firmware differs from the sealed manifest; refusing to reuse its launch measurements"
  | none =>
      ensure (build.snpVariants = [])
        "existing SNP variants have no recorded firmware identity; derive them again from the original sealed output"

/-- `OVMF.fd` is the supplied firmware, or is copied from it. -/
def placeFirmware (args : IgvmArgs) (firmwareHash : String) :
    Program Unit := do
  if ← fileExists "OVMF.fd" then
    let output ← readFile "OVMF.fd"
    ensure (fileHash tools output = firmwareHash)
      "output OVMF.fd differs from the supplied SNP firmware"
  else
    let firmware ← readFirmware args.firmware
    writeFile "OVMF.fd" firmware

/-- The manifest with its firmware, the firmware, and the UKI. -/
def prepareInputs (args : IgvmArgs) (build : BuildManifest) :
    Program (BuildManifest × Bytes × Bytes) := do
  let sealed ← readFile "uki.efi"
  ensure (fileHash tools sealed = build.outputs.uki.sha256)
    "UKI differs from the sealed manifest; build a new image before deriving SNP variants"
  let supplied ← readFirmware args.firmware
  let firmwareHash := fileHash tools supplied
  checkFirmware build firmwareHash
  placeFirmware tools args firmwareHash
  let firmware ← readFile "OVMF.fd"
  let uki ← readFile "uki.efi"
  return ({ build with
    inputs := { firmware := some { path := "OVMF.fd", sha256 := firmwareHash } } },
    firmware, uki)

/-- Whether the file of a vCPU count still has its recorded hash. -/
def isUnchanged (build : BuildManifest) (smp : UInt32) : Program Bool := do
  match build.snpVariants.find? (·.smp = smp) with
  | none => return false
  | some existing =>
      if ← fileExists (igvmName smp) then
        tryCatch
          (do
            let igvm ← readFile (igvmName smp)
            return fileHash tools igvm = existing.igvm.sha256)
          fun _ => return false
      else
        return false

/-- Build, write and record the image of a vCPU count. -/
def rebuildVariant
    (firmware uki : Bytes) (build : BuildManifest) (smp : UInt32) :
    Program BuildManifest := do
  match buildSnp tools firmware uki smp with
  | .error problem => throw problem
  | .ok result =>
      writeFile (igvmName smp) result.igvmBytes
      let igvm ← readFile (igvmName smp)
      return { build with
        snpVariants :=
          upsertVariant (snpVariant smp result (fileHash tools igvm))
            build.snpVariants }

/-- One turn of the loop over the vCPU counts. -/
def deriveVariant
    (firmware uki : Bytes) (build : BuildManifest) (smp : UInt32) :
    Program BuildManifest := do
  ensure (smp ≠ 0) "SMP count must be >= 1"
  if ← isUnchanged tools build smp then
    return build
  else
    rebuildVariant tools firmware uki build smp

/-- Everything before the manifest is written. -/
def deriveVariants (args : IgvmArgs) : Program BuildManifest := do
  let world ← get
  ensure (world.dir.present = true)
    s!"output directory not found: {args.dir}"
  ensure (world.firmwareFile.isSome = true)
    s!"firmware not found: {args.firmware}"
  ensure ((world.dir.files "uki.efi").isSome = true)
    s!"uki.efi not found in {args.dir}. Run `confos build` first."
  ensure (world.dir.manifest ≠ .missing)
    s!"manifest.json not found in {args.dir}. Run `confos build` first."
  let build ← readManifest args.dir
  let (build, firmware, uki) ← prepareInputs tools args build
  args.smp.foldlM (deriveVariant tools firmware uki) build

/-- The manifest as it is written: sorted, and tagged anew. -/
def finishManifest (build : BuildManifest) : BuildManifest :=
  { build with
    snpVariants :=
      build.snpVariants.insertionSort fun left right => left.smp ≤ right.smp
    build :=
      { build.build with
        platform := if build.tdx.isSome then "both" else "snp" } }

def run (args : IgvmArgs) : Program Unit := do
  let build ← deriveVariants tools args
  writeManifest (finishManifest build)

end

end Confos.Image.IgvmCommand
