import Confos.Image.Qemu
import Confos.Image.SizeReaders
import Confos.Library.BytePaths

/-!
# What `confos run` boots

The runner takes the image of a vCPU count from the manifest, or the UKI and a
firmware where the machine has no SEV-SNP, and hands their paths to QEMU with
those of the disks.  All of them are looked up in the sealed directory; the
name of the IGVM file is the manifest's own, and is not checked.
-/

namespace Confos.Image.Launch

open Confos.Image.Manifest
open Confos.Image.Qemu
open Confos.Image.RunCommand
open Confos.Image.SizeReaders
open Confos.Library.ByteStrings
open Confos.Library.BytePaths
open Confos.Library.Checks
open Confos.Library.Fallible
open Confos.Library.Numerals
open Confos.Library.Text

structure RunArgs where
  dir : FilePath
  portForward : List String
  qemuBin : String
  firmware : Option FilePath
  hostData : Option (Block 32)
  cdroms : List FilePath
  smp : Option UInt32
  scratch : Option String

/-- What the machine answers the runner. -/
structure Host where
  pathExists : FilePath → Bool
  isFile : FilePath → Bool
  readManifest : FilePath → Except String BuildManifest
  detectTier : String → Except String QemuTier
  createFile : FilePath → Nat → Except String Unit

structure BootConfig where
  igvm : Option FilePath
  uki : Option FilePath
  firmware : Option FilePath
  smp : UInt32
  snpLaunchDigest : Option String
deriving DecidableEq

/-! ## The boot configuration -/

def selectVariant (variants : List SnpVariant) (smp : Option UInt32) :
    Except String (Option SnpVariant) :=
  match smp with
  | none => .ok variants.head?
  | some smp =>
      if variants.isEmpty then
        .ok none
      else
        match variants.find? fun variant => variant.smp = smp with
        | some variant => .ok (some variant)
        | none =>
            let available :=
              ", ".intercalate (variants.map fun variant => toString variant.smp)
            .error s!"no SNP variant for --smp {smp} (manifest has: {available}); add one with: confos igvm <dir> --smp {smp}"

def snpConfig (host : Host) (args : RunArgs) (variant : SnpVariant) :
    Except String BootConfig :=
  let path := join args.dir (utf8Bytes variant.igvm.path)
  if host.pathExists path then
    .ok
      { igvm := some path
        uki := none
        firmware := none
        smp := variant.smp
        snpLaunchDigest := some variant.measurement.snpLaunchDigest }
  else
    .error s!"{variant.igvm.path} not found in {display args.dir} (referenced by manifest variant smp={variant.smp})"

def resolveFirmware (host : Host) (args : RunArgs) (manifest : BuildManifest) :
    Except String FilePath :=
  match args.firmware with
  | some firmware =>
      if host.pathExists firmware then
        .ok firmware
      else
        .error s!"firmware not found: {display firmware}"
  | none =>
      if manifest.inputs.firmware.isSome then
        let firmware := join args.dir (utf8Bytes "OVMF.fd")
        if host.pathExists firmware then
          .ok firmware
        else
          .error s!"firmware not found at {display firmware} (build copies firmware into the output directory)"
      else
        .error "no firmware available — image was built with --skip-igvm. Pass --firmware <path> to run on KVM."

def resolveBootConfig (host : Host) (args : RunArgs) (manifest : BuildManifest)
    (tier : QemuTier) : Except String BootConfig :=
  match tier with
  | .sevSnp => do
      let selected ← selectVariant manifest.snpVariants args.smp
      match selected with
      | none =>
          .error s!"no IGVM variants in manifest at {display args.dir}. Was the image built with --skip-igvm?"
      | some variant => snpConfig host args variant
  | .kvm | .emulated =>
      if args.hostData.isSome then
        .error hostDataRequiresSnp
      else
        let uki := join args.dir (utf8Bytes "uki.efi")
        if host.pathExists uki then do
          let firmware ← resolveFirmware host args manifest
          .ok
            { igvm := none
              uki := some uki
              firmware := some firmware
              smp :=
                args.smp.getD
                  ((manifest.snpVariants.head?.map SnpVariant.smp).getD 2)
              snpLaunchDigest := none }
        else
          .error s!"uki.efi not found in {display args.dir}"

/-! ## The launch -/

def diskPath (args : RunArgs) (manifest : BuildManifest) : FilePath :=
  join args.dir (utf8Bytes s!"disk.{manifest.build.format}")

def scratchPath (args : RunArgs) : FilePath :=
  join args.dir (utf8Bytes "scratch.raw")

def parsePortForward (text : String) : Except String (UInt16 × UInt16) :=
  match splitOnce ':' text.toList with
  | none =>
      .error s!"invalid --port-forward format, expected HOST:GUEST: {text}"
  | some (hostText, guestText) =>
      match parseWord 16 hostText with
      | none => .error s!"invalid host port: {String.ofList hostText}"
      | some hostPort =>
          match parseWord 16 guestText with
          | none => .error s!"invalid guest port: {String.ofList guestText}"
          | some guestPort =>
              .ok (UInt16.ofNat hostPort, UInt16.ofNat guestPort)

/-- A sparse file of the requested size for the scratch disk. -/
def createScratch (host : Host) (args : RunArgs) : Checked Unit :=
  match args.scratch with
  | none => .ok ()
  | some size => do
      let bytes ← parseSizeToBytes size
      ofResult (host.createFile (scratchPath args) bytes)

def launchArgs (args : RunArgs) (manifest : BuildManifest) (tier : QemuTier)
    (boot : BootConfig) (portForwards : List (UInt16 × UInt16)) : QemuArgs :=
  { tier
    igvm := boot.igvm
    uki := boot.uki
    firmware := boot.firmware
    disk := diskPath args manifest
    diskFormat := manifest.build.format
    smp := boot.smp
    memory := manifest.build.memory
    hostData := args.hostData
    cdroms := args.cdroms
    portForwards
    scratch := args.scratch.map fun _ => scratchPath args }

/-- The last steps: the disk, the ports and the scratch disk. -/
def finishLaunch (host : Host) (args : RunArgs) (manifest : BuildManifest)
    (tier : QemuTier) (boot : BootConfig) :
    Checked (QemuArgs × Option String) :=
  if host.pathExists (diskPath args manifest) then do
    let portForwards ← ofResult (args.portForward.mapM parsePortForward)
    createScratch host args
    return (launchArgs args manifest tier boot portForwards,
      boot.snpLaunchDigest)
  else
    refuse s!"disk.{manifest.build.format} not found in {display args.dir}"

/-- What `confos run` hands to QEMU, and the launch digest it announces. -/
def run (host : Host) (args : RunArgs) : Checked (QemuArgs × Option String) := do
  ofResult (validateCdroms host.isFile args.cdroms)
  let manifestPath := join args.dir (utf8Bytes "manifest.json")
  if !host.pathExists args.dir then
    refuse s!"output directory not found: {display args.dir}"
  else if !host.pathExists manifestPath then
    refuse s!"manifest.json not found in {display args.dir}. Run `confos build` first."
  else
    let manifest ← ofResult (host.readManifest manifestPath)
    ofResult (validateManifestFields manifest)
    let tier ← ofResult (host.detectTier args.qemuBin)
    let boot ← ofResult (resolveBootConfig host args manifest tier)
    finishLaunch host args manifest tier boot

/-! ## Where the files are -/

/-- The image of the requested vCPU count, or the first one. -/
def IsRequested (variants : List SnpVariant) (smp : Option UInt32)
    (variant : SnpVariant) : Prop :=
  match smp with
  | none => variants.head? = some variant
  | some smp => variants.find? (fun variant => variant.smp = smp) = some variant

/-- All that QEMU is given is in the sealed directory, and of one image. -/
structure BootsSealed (args : RunArgs) (manifest : BuildManifest)
    (boot : BootConfig) (qemu : QemuArgs) : Prop where
  igvm : ∀ path ∈ qemu.igvm, IsIn args.dir path
  uki : ∀ path ∈ qemu.uki, IsIn args.dir path
  disk : IsIn args.dir qemu.disk
  scratch : ∀ path ∈ qemu.scratch, IsIn args.dir path
  firmware :
    args.firmware = none → ∀ path ∈ qemu.firmware, IsIn args.dir path
  variant :
    qemu.tier = .sevSnp →
      ∃ variant, IsRequested manifest.snpVariants args.smp variant ∧
        qemu.smp = variant.smp ∧
          boot.snpLaunchDigest = some variant.measurement.snpLaunchDigest ∧
            qemu.igvm = some (join args.dir (utf8Bytes variant.igvm.path))

/--
A file name of the manifest that stays in the directory: one plain name, or an
absolute path to one there.
-/
def StaysIn (dir : FilePath) (path : String) : Prop :=
  IsPlainName (utf8Bytes path) ∨
    isAbsolute (utf8Bytes path) = true ∧
      IsPlainName (baseName (utf8Bytes path)) ∧
        utf8Bytes path = join dir (baseName (utf8Bytes path))

section

variable
    {host : Host} {args : RunArgs} {manifest : BuildManifest}
    {tier : QemuTier} {boot : BootConfig}

theorem selectVariant_eq_ok_some_iff
    {variants : List SnpVariant} {smp : Option UInt32}
    {variant : SnpVariant} :
    selectVariant variants smp = .ok (some variant) ↔
      IsRequested variants smp variant := by
  cases smp with
  | none => simp [selectVariant, IsRequested]
  | some smp =>
      rw [selectVariant, IsRequested]
      dsimp only
      by_cases empty : variants.isEmpty = true
      · rw [if_pos empty, List.isEmpty_iff.1 empty]
        simp
      · rw [if_neg empty]
        cases variants.find? fun variant => variant.smp = smp with
        | none => simp
        | some other => simp

theorem IsRequested.unique
    {variants : List SnpVariant} {smp : Option UInt32}
    {first second : SnpVariant}
    (requested : IsRequested variants smp first)
    (other : IsRequested variants smp second) : first = second := by
  cases smp with
  | none => exact Option.some.inj (requested.symm.trans other)
  | some smp => exact Option.some.inj (requested.symm.trans other)

/-- On the SNP tier the configuration is the one of the requested image. -/
theorem resolveBootConfig_sevSnp_eq_ok
    (resolved : resolveBootConfig host args manifest .sevSnp = .ok boot) :
    ∃ variant, IsRequested manifest.snpVariants args.smp variant ∧
      boot =
        { igvm := some (join args.dir (utf8Bytes variant.igvm.path))
          uki := none
          firmware := none
          smp := variant.smp
          snpLaunchDigest := some variant.measurement.snpLaunchDigest } := by
  rw [resolveBootConfig, bind_eq_ok] at resolved
  rcases resolved with ⟨selected, select, configured⟩
  cases selected with
  | none => cases configured
  | some variant =>
      refine ⟨variant, selectVariant_eq_ok_some_iff.1 select, ?_⟩
      dsimp only at configured
      rw [snpConfig] at configured
      split at configured
      · cases configured
        rfl
      · cases configured

theorem resolveFirmware_eq_ok
    {firmware : FilePath}
    (resolved : resolveFirmware host args manifest = .ok firmware)
    (notGiven : args.firmware = none) :
    firmware = join args.dir (utf8Bytes "OVMF.fd") := by
  rw [resolveFirmware, notGiven] at resolved
  dsimp only at resolved
  split at resolved
  · split at resolved
    · cases resolved
      rfl
    · cases resolved
  · cases resolved

/-- On the other tiers the UKI is booted, and a firmware of the directory. -/
theorem resolveBootConfig_eq_ok
    (notSnp : tier ≠ .sevSnp)
    (resolved : resolveBootConfig host args manifest tier = .ok boot) :
    boot.igvm = none ∧
      boot.uki = some (join args.dir (utf8Bytes "uki.efi")) ∧
        (args.firmware = none →
          boot.firmware = some (join args.dir (utf8Bytes "OVMF.fd"))) := by
  have steps :
      ∃ firmware, resolveFirmware host args manifest = .ok firmware ∧
        boot.igvm = none ∧
          boot.uki = some (join args.dir (utf8Bytes "uki.efi")) ∧
            boot.firmware = some firmware := by
    cases tier with
    | sevSnp => exact absurd rfl notSnp
    | kvm | emulated =>
        rw [resolveBootConfig] at resolved
        dsimp only at resolved
        split at resolved
        · cases resolved
        · split at resolved
          · rcases bind_eq_ok.1 resolved with ⟨firmware, found, configured⟩
            cases configured
            exact ⟨firmware, found, rfl, rfl, rfl⟩
          · cases resolved
  rcases steps with ⟨firmware, found, igvm, uki, isFirmware⟩
  refine ⟨igvm, uki, ?_⟩
  intro notGiven
  rw [isFirmware, resolveFirmware_eq_ok found notGiven]

/-- The disk has a plain name because its format is checked. -/
theorem isIn_diskPath
    (accepted : validateManifestFields manifest = .ok ()) :
    IsIn args.dir (diskPath args manifest) := by
  have format := (validateManifestFields_eq_ok_iff.1 accepted).1
  rw [diskPath]
  apply IsPlainName.isIn_join
  rw [allowedDiskFormats] at format
  rcases List.mem_cons.1 format with raw | qcow2
  · rw [raw]
    decide
  · rw [List.mem_singleton.1 qcow2]
    decide

theorem isIn_scratch
    {path : FilePath} {portForwards : List (UInt16 × UInt16)}
    (isScratch :
      path ∈ (launchArgs args manifest tier boot portForwards).scratch) :
    IsIn args.dir path := by
  rw [launchArgs, Option.mem_def, Option.map_eq_some_iff] at isScratch
  rcases isScratch with ⟨-, -, rfl⟩
  exact IsPlainName.isIn_join (by decide)

theorem isIn_join_igvm_iff {variant : SnpVariant} :
    IsIn args.dir (join args.dir (utf8Bytes variant.igvm.path)) ↔
      StaysIn args.dir variant.igvm.path :=
  isIn_join_iff

/-- Only the name of the IGVM file can lead out of the sealed directory. -/
theorem bootsSealed_iff
    (accepted : validateManifestFields manifest = .ok ())
    (resolved : resolveBootConfig host args manifest tier = .ok boot)
    (portForwards : List (UInt16 × UInt16)) :
    BootsSealed args manifest boot
        (launchArgs args manifest tier boot portForwards) ↔
      (tier = .sevSnp → ∀ variant,
        IsRequested manifest.snpVariants args.smp variant →
          StaysIn args.dir variant.igvm.path) := by
  by_cases snp : tier = .sevSnp
  · subst snp
    rcases resolveBootConfig_sevSnp_eq_ok resolved with
      ⟨variant, requested, rfl⟩
    constructor
    · intro isSealed _ other otherRequested
      cases requested.unique otherRequested
      exact isIn_join_igvm_iff.1 (isSealed.igvm _ rfl)
    · intro stays
      constructor
      · intro path isIgvm
        cases isIgvm
        exact isIn_join_igvm_iff.2 (stays rfl variant requested)
      · intro path impossible
        cases impossible
      · exact isIn_diskPath accepted
      · exact fun path => isIn_scratch
      · intro _ path impossible
        cases impossible
      · exact fun _ => ⟨variant, requested, rfl, rfl, rfl⟩
  · rcases resolveBootConfig_eq_ok snp resolved with ⟨igvm, uki, firmware⟩
    constructor
    · exact fun _ isSnp => absurd isSnp snp
    · intro _
      constructor
      · intro path isIgvm
        cases igvm.symm.trans isIgvm
      · intro path isUki
        cases uki.symm.trans isUki
        exact IsPlainName.isIn_join (by decide)
      · exact isIn_diskPath accepted
      · exact fun path => isIn_scratch
      · intro notGiven path isFirmware
        cases (firmware notGiven).symm.trans isFirmware
        exact IsPlainName.isIn_join (by decide)
      · exact fun isSnp => absurd isSnp snp

/-- What a run hands to QEMU is what it resolved from a checked manifest. -/
theorem exists_of_run_eq_ok
    {qemu : QemuArgs} {digest : Option String}
    (ran : run host args = .ok (qemu, digest)) :
    ∃ manifest tier boot portForwards,
      host.readManifest (join args.dir (utf8Bytes "manifest.json")) =
          .ok manifest ∧
        validateManifestFields manifest = .ok () ∧
          resolveBootConfig host args manifest tier = .ok boot ∧
            qemu = launchArgs args manifest tier boot portForwards ∧
              digest = boot.snpLaunchDigest := by
  rw [run, bind_eq_ok] at ran
  rcases ran with ⟨_, -, ran⟩
  dsimp only at ran
  split at ran
  · cases ran
  split at ran
  · cases ran
  rcases bind_eq_ok.1 ran with ⟨manifest, read, checkedFields⟩
  rcases bind_eq_ok.1 checkedFields with ⟨_, accepted, detecting⟩
  rcases bind_eq_ok.1 detecting with ⟨tier, -, resolving⟩
  rcases bind_eq_ok.1 resolving with ⟨boot, resolved, finishing⟩
  rw [finishLaunch] at finishing
  split at finishing
  · rcases bind_eq_ok.1 finishing with ⟨portForwards, -, creating⟩
    rcases bind_eq_ok.1 creating with ⟨_, -, launched⟩
    cases launched
    exact
      ⟨manifest, tier, boot, portForwards, mapError_eq_ok.1 read,
        mapError_eq_ok.1 accepted, mapError_eq_ok.1 resolved, rfl, rfl⟩
  · cases finishing

end

/-! ## Two manifests -/

/-- A machine that has every file. -/
def fullHost (manifest : BuildManifest) : Host where
  pathExists _ := true
  isFile _ := true
  readManifest _ := .ok manifest
  detectTier _ := .ok .sevSnp
  createFile _ _ := .ok ()

def plainArgs : RunArgs where
  dir := utf8Bytes "output/base"
  portForward := []
  qemuBin := "qemu-system-x86_64"
  firmware := none
  hostData := none
  cdroms := []
  smp := none
  scratch := none

/-- A manifest of one image with this file name. -/
def namedManifest (path : String) : BuildManifest where
  version := manifestVersion
  build := { memory := "4G", format := "raw", platform := "snp" }
  inputs := { firmware := none }
  outputs := { uki := { path := "uki.efi", sha256 := "00" } }
  snpVariants :=
    [{ smp := 2
       igvm := { path, sha256 := "00" }
       measurement :=
         { snpLaunchDigest := "11"
           algorithm := "sha384"
           pageCount := 1
           vmsaCount := 2 } }]

def namedBoot (path : String) : BootConfig where
  igvm := some (join plainArgs.dir (utf8Bytes path))
  uki := none
  firmware := none
  smp := 2
  snpLaunchDigest := some "11"

theorem bootsSealed_iff_plainName :
    BootsSealed plainArgs (namedManifest "guest-smp2.igvm")
        (namedBoot "guest-smp2.igvm")
        (launchArgs plainArgs (namedManifest "guest-smp2.igvm") .sevSnp
          (namedBoot "guest-smp2.igvm") []) ↔
      (QemuTier.sevSnp = .sevSnp → ∀ variant,
        IsRequested (namedManifest "guest-smp2.igvm").snpVariants none
            variant →
          StaysIn plainArgs.dir variant.igvm.path) :=
  @bootsSealed_iff (fullHost (namedManifest "guest-smp2.igvm")) plainArgs
    (namedManifest "guest-smp2.igvm") .sevSnp (namedBoot "guest-smp2.igvm")
    (by decide) rfl []

/-- A manifest that passes the checks and boots an image from elsewhere. -/
theorem not_bootsSealed_climbingName :
    validateManifestFields (namedManifest "../evil.igvm") = .ok () ∧
      resolveBootConfig (fullHost (namedManifest "../evil.igvm")) plainArgs
          (namedManifest "../evil.igvm") .sevSnp =
        .ok (namedBoot "../evil.igvm") ∧
        ¬ BootsSealed plainArgs (namedManifest "../evil.igvm")
          (namedBoot "../evil.igvm")
          (launchArgs plainArgs (namedManifest "../evil.igvm") .sevSnp
            (namedBoot "../evil.igvm") []) := by
  refine ⟨by decide, rfl, ?_⟩
  intro isSealed
  have isIn := isIn_join_iff.1 (isSealed.igvm _ rfl)
  exact absurd isIn (by decide)

end Confos.Image.Launch
