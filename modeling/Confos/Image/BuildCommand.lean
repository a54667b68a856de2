import Confos.Image.Files
import Confos.Image.RunCommand
import Mathlib.Data.List.Sort
import Mathlib.Data.List.Dedup

/-!
# `confos build`

The last part of a build: from the UKI and the disk that mkosi left and the
two firmware files, it derives the measurements and writes the output
directory with its manifest.  What comes before (staging, the kernel, mkosi
itself) and the files that no later command reads are left out.
-/

namespace Confos.Image.BuildCommand

open Confos.Library.ByteStrings
open Confos.Library.Fallible
open Confos.Igvm.Build
open Confos.Image.Manifest
open Confos.Image.Files
open Confos.Image.RunCommand

inductive BuildPlatform where
  | snp
  | tdx
  | both
deriving DecidableEq, Repr

def BuildPlatform.needsSnp : BuildPlatform → Bool
  | .snp | .both => true
  | .tdx => false

def BuildPlatform.needsTdx : BuildPlatform → Bool
  | .tdx | .both => true
  | .snp => false

/-- The tag in `build.platform`. -/
def BuildPlatform.tag : BuildPlatform → String
  | .snp => "snp"
  | .tdx => "tdx"
  | .both => "multi"

structure BuildArgs where
  platform : BuildPlatform := .both
  skipIgvm : Bool := false
  firmware : String := "output/OVMF.fd"
  tdxFirmware : String := "firmware/OVMF.inteltdx.fd"
  memory : String := "4G"
  smp : List UInt32 := [2, 4, 8, 16]
deriving DecidableEq, Repr

/-- What the steps before left, and the two firmware files, if they exist. -/
structure BuildProducts where
  uki : Bytes
  disk : Bytes
  snpFirmware : Option Bytes := none
  tdxFirmware : Option Bytes := none
deriving DecidableEq, Repr

/-- The requested platform; the legacy flag asks for TDX. -/
def resolvePlatform (args : BuildArgs) : Except String BuildPlatform :=
  if args.skipIgvm then
    match args.platform with
    | .tdx | .both => .ok .tdx
    | .snp =>
        .error "--skip-igvm with --platform snp is incoherent (skip-igvm produces no SNP launch digest, but --platform snp asks for one). Drop one of the flags."
  else
    .ok args.platform

/-- A firmware file, where its platform is built for. -/
def requireFirmware (needed : Bool) (file : Option Bytes) (problem : String) :
    Except String (Option Bytes) :=
  if needed then
    match file with
    | some bytes => .ok (some bytes)
    | none => .error problem
  else
    .ok none

section

variable (tools : Tools)

/-- One image with its manifest entry. -/
def buildVariant (firmware uki : Bytes) (smp : UInt32) :
    Except String (Bytes × SnpVariant) :=
  if smp = 0 then
    .error "SMP count must be >= 1, got 0"
  else do
    let result ← buildSnp tools firmware uki smp
    return (result.igvmBytes,
      snpVariant smp result (fileHash tools result.igvmBytes))

/-- The vCPU counts in order, each once. -/
def sortedSmps (smps : List UInt32) : List UInt32 :=
  (smps.insertionSort (· ≤ ·)).dedup

def buildVariants (snpFirmware : Option Bytes) (uki : Bytes)
    (smps : List UInt32) : Except String (List (Bytes × SnpVariant)) :=
  match snpFirmware with
  | none => .ok []
  | some firmware =>
      if sortedSmps smps = [] then
        .error "--smp must list at least one vCPU count"
      else
        (sortedSmps smps).mapM (buildVariant tools firmware uki)

def measureTdx (tdxFirmware : Option Bytes) (uki disk : Bytes) :
    Except String (Option TdxMeasurement) :=
  match tdxFirmware with
  | none => .ok none
  | some firmware =>
      match tools.measureUki firmware uki disk with
      | .error problem => .error s!"TDX measurement failed: {problem}"
      | .ok registers =>
          .ok
            (some
              { mrtd := registers.mrtd
                rtmr1 := registers.rtmr1
                rtmr2 := registers.rtmr2
                firmware :=
                  some { path := "OVMF.tdx.fd"
                         sha256 := fileHash tools firmware } })

/-- The files of the output directory that the commands read. -/
def outputFiles (products : BuildProducts)
    (snpFirmware tdxFirmware : Option Bytes)
    (variants : List (Bytes × SnpVariant)) : List (String × Bytes) :=
  [("uki.efi", products.uki), ("disk.raw", products.disk)] ++
    variants.map (fun built => (built.2.igvm.path, built.1)) ++
      (snpFirmware.map fun firmware => ("OVMF.fd", firmware)).toList ++
        (tdxFirmware.map fun firmware => ("OVMF.tdx.fd", firmware)).toList

def buildManifest (args : BuildArgs) (products : BuildProducts)
    (platform : BuildPlatform) (snpFirmware : Option Bytes)
    (variants : List (Bytes × SnpVariant)) (tdx : Option TdxMeasurement) :
    BuildManifest :=
  { version := manifestVersion
    build :=
      { memory := args.memory, format := "raw", platform := platform.tag }
    inputs :=
      { firmware :=
          snpFirmware.map fun firmware =>
            { path := "OVMF.fd", sha256 := fileHash tools firmware } }
    outputs :=
      { uki := { path := "uki.efi", sha256 := fileHash tools products.uki } }
    snpVariants := variants.map (·.2)
    tdx }

def run (args : BuildArgs) (products : BuildProducts) :
    Except String OutputDir := do
  let platform ← resolvePlatform args
  let snpFirmware ←
    requireFirmware platform.needsSnp products.snpFirmware
      s!"SNP firmware not found: {args.firmware} (--firmware). Pass `--platform tdx` to build without SNP measurement."
  let tdxFirmware ←
    requireFirmware platform.needsTdx products.tdxFirmware
      s!"TDX firmware not found: {args.tdxFirmware} (--tdx-firmware). Needs the unified Intel TDX build `OVMF.inteltdx.fd` (boots a TD via -bios); ubuntu's `ovmf` package ships it under /usr/share/ovmf/. If your distro names it differently (e.g. some builds ship only OVMF.tdx.fd, which is pflash-style and does NOT -bios-boot), point --tdx-firmware / CONFOS_TDX_FIRMWARE at a -bios-capable OVMF.inteltdx.fd."
  validateMemory args.memory
  let variants ← buildVariants tools snpFirmware products.uki args.smp
  let tdx ← measureTdx tools tdxFirmware products.uki products.disk
  return {
    manifest :=
      .holds
        (buildManifest tools args products platform snpFirmware variants tdx)
    files := fun name =>
      (outputFiles products snpFirmware tdxFirmware variants).lookup name }

/-! ## What a successful build left -/

theorem requireFirmware_eq_ok
    {needed : Bool} {file found : Option Bytes} {problem : String}
    (required : requireFirmware needed file problem = .ok found) :
    found = (if needed then file else none) ∧ found.isSome = needed := by
  cases needed with
  | false =>
      cases required
      exact ⟨rfl, rfl⟩
  | true =>
      cases file with
      | none => cases required
      | some bytes =>
          cases required
          exact ⟨rfl, rfl⟩

theorem buildVariant_eq_ok
    {firmware uki : Bytes} {smp : UInt32} {built : Bytes × SnpVariant}
    (ran : buildVariant tools firmware uki smp = .ok built) :
    smp ≠ 0 ∧
      ∃ result,
        buildSnp tools firmware uki smp = .ok result ∧
          built =
            (result.igvmBytes,
              snpVariant smp result (fileHash tools result.igvmBytes)) := by
  rw [buildVariant] at ran
  by_cases zero : smp = 0
  · rw [if_pos zero] at ran
    cases ran
  · rw [if_neg zero] at ran
    rcases bind_eq_ok.1 ran with ⟨result, measured, returned⟩
    cases returned
    exact ⟨zero, result, measured, rfl⟩

theorem mem_sortedSmps {smps : List UInt32} {smp : UInt32} :
    smp ∈ sortedSmps smps ↔ smp ∈ smps := by
  rw [sortedSmps, List.mem_dedup, List.mem_insertionSort]

theorem nodup_sortedSmps (smps : List UInt32) : (sortedSmps smps).Nodup :=
  List.nodup_dedup _

/-- The entries are those of the requested counts, each built from the inputs. -/
theorem buildVariants_eq_ok
    {firmware uki : Bytes} {smps : List UInt32}
    {variants : List (Bytes × SnpVariant)}
    (ran : buildVariants tools (some firmware) uki smps = .ok variants) :
    sortedSmps smps ≠ [] ∧
      List.Forall₂
        (fun smp built => buildVariant tools firmware uki smp = .ok built)
        (sortedSmps smps) variants := by
  rw [buildVariants] at ran
  by_cases empty : sortedSmps smps = []
  · simp only [if_pos empty, reduceCtorEq] at ran
  · simp only [if_neg empty] at ran
    exact ⟨empty, mapM_eq_ok.1 ran⟩

end

/-! ## A small build -/

/-- Tools that accept every image and hash a file to its first bytes. -/
def sampleTools : Tools where
  sha256 := fun bytes => ⟨padTo 32 bytes, length_padTo 32 bytes⟩
  sha384 := fun _ => Block.zero 48
  igvmCrate :=
    { vmsaAsBytes := fun _ => []
      newFile := fun platforms initializations directives =>
        .ok { platforms, initializations, directives }
      serialize := fun _ => .ok [] }
  measureUki := fun _ _ _ => .ok { mrtd := "", rtmr1 := "", rtmr2 := "" }

/-- A UKI and a disk of one byte, and the smallest firmware for both platforms. -/
def sampleProducts : BuildProducts where
  uki := [1]
  disk := [2]
  snpFirmware := some (Igvm.Ovmf.hobFirmware 0x810000)
  tdxFirmware := some [3]

example :
    (run sampleTools { smp := [1] } sampleProducts).isOk = true := by
  decide +kernel

end Confos.Image.BuildCommand
