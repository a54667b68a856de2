import Confos.Image.IgvmCommand
import Mathlib.Data.List.Nodup

/-!
# What a run of `confos igvm` does to the manifest

A run that fails leaves the manifest alone, unless it was cut short while
writing it.  A run that succeeds keeps every entry or replaces it by one built
from the firmware and the UKI it has checked, and adds one for each further
vCPU count.
-/

namespace Confos.Image.Derivation

open Confos.Library.ByteStrings
open Confos.Library.Effects
open Confos.Igvm.Build
open Confos.Image.Manifest
open Confos.Image.Files
open Confos.Image.IgvmCommand

/-! ## Replacing an entry -/

section

variable {variant : SnpVariant} {variants : List SnpVariant}

theorem eq_or_mem_of_mem_upsertVariant
    {other : SnpVariant} (member : other ∈ upsertVariant variant variants) :
    other = variant ∨ other ∈ variants := by
  induction variants with
  | nil => exact Or.inl (List.mem_singleton.1 member)
  | cons existing rest induction =>
      rw [upsertVariant] at member
      split at member
      · rcases List.mem_cons.1 member with same | later
        · exact Or.inl same
        · exact Or.inr (List.mem_cons_of_mem _ later)
      · rcases List.mem_cons.1 member with same | later
        · exact Or.inr (List.mem_cons.2 (Or.inl same))
        · rcases induction later with same | old
          · exact Or.inl same
          · exact Or.inr (List.mem_cons_of_mem _ old)

/-- The counts stay as they are, or the new one comes last. -/
theorem smps_upsertVariant :
    (upsertVariant variant variants).map (·.smp) =
      if variant.smp ∈ variants.map (·.smp) then
        variants.map (·.smp)
      else
        variants.map (·.smp) ++ [variant.smp] := by
  induction variants with
  | nil => rfl
  | cons existing rest induction =>
      rw [upsertVariant]
      by_cases same : existing.smp = variant.smp
      · simp [same]
      · rw [if_neg same, List.map_cons, induction, List.map_cons]
        by_cases later : variant.smp ∈ rest.map (·.smp)
        · rw [if_pos later, if_pos (List.mem_cons_of_mem _ later)]
        · have absent :
              variant.smp ∉ existing.smp :: rest.map (·.smp) := by
            intro found
            rcases List.mem_cons.1 found with first | others
            · exact same first.symm
            · exact later others
          rw [if_neg later, if_neg absent]
          rfl

theorem mem_smps_upsertVariant {smp : UInt32} :
    smp ∈ (upsertVariant variant variants).map (·.smp) ↔
      smp ∈ variants.map (·.smp) ∨ smp = variant.smp := by
  rw [smps_upsertVariant]
  split
  · next present =>
      constructor
      · exact Or.inl
      · rintro (old | rfl)
        · exact old
        · exact present
  · rw [List.mem_append, List.mem_singleton]

theorem nodup_smps_upsertVariant
    (nodup : (variants.map (·.smp)).Nodup) :
    ((upsertVariant variant variants).map (·.smp)).Nodup := by
  rw [smps_upsertVariant]
  split
  · exact nodup
  · next absent =>
      apply List.Nodup.append nodup (List.nodup_singleton _)
      apply List.disjoint_right.2
      intro smp last
      rw [List.mem_singleton.1 last]
      exact absent

theorem nodup_insertionSort_smps
    (nodup : (variants.map (·.smp)).Nodup) :
    ((variants.insertionSort fun left right => left.smp ≤ right.smp).map
        (·.smp)).Nodup :=
  (((List.perm_insertionSort _ variants).map _).nodup_iff).2 nodup

end

/-! ## What stays until the manifest is written -/

section

variable (tools : Tools) {Part : Type} {part : OutputDir → Part}

/-- The checks before the firmware is placed leave the directory alone. -/
theorem leaves_checkFirmware (build : BuildManifest) (firmwareHash : String) :
    Leaves (fun world => part world.dir)
      (checkFirmware build firmwareHash) := by
  rw [checkFirmware]
  cases build.inputs.firmware with
  | some recorded => exact leaves_ensure _ _
  | none => exact leaves_ensure _ _

section

variable
    (firmwareKept :
      ∀ dir bytes,
        part (OutputDir.setFile dir "OVMF.fd" bytes) = part dir)
include firmwareKept

theorem leaves_placeFirmware (args : IgvmArgs) (firmwareHash : String) :
    Leaves (fun world => part world.dir)
      (placeFirmware tools args firmwareHash) := by
  apply leaves_bind (leaves_fileExists _)
  intro found
  apply leaves_ite
  · apply leaves_bind (leaves_readFile _)
    intro output
    exact leaves_ensure _ _
  · apply leaves_bind (leaves_readFirmware _)
    intro firmware
    exact leaves_writeFile firmwareKept _

theorem leaves_prepareInputs (args : IgvmArgs) (build : BuildManifest) :
    Leaves (fun world => part world.dir) (prepareInputs tools args build) := by
  apply leaves_bind (leaves_readFile _)
  intro sealed
  apply leaves_bind (leaves_ensure _ _)
  intro _
  apply leaves_bind (leaves_readFirmware _)
  intro supplied
  apply leaves_bind (leaves_checkFirmware _ _)
  intro _
  apply leaves_bind (leaves_placeFirmware tools firmwareKept _ _)
  intro _
  apply leaves_bind (leaves_readFile _)
  intro firmware
  apply leaves_bind (leaves_readFile _)
  intro uki
  exact leaves_pure _

end

theorem leaves_isUnchanged (build : BuildManifest) (smp : UInt32) :
    Leaves (fun world => part world.dir) (isUnchanged tools build smp) := by
  rw [isUnchanged]
  cases build.snpVariants.find? (·.smp = smp) with
  | none => exact leaves_pure false
  | some existing =>
      apply leaves_bind (leaves_fileExists _)
      intro found
      apply leaves_ite
      · apply leaves_tryCatch
        · apply leaves_bind (leaves_readFile _)
          intro igvm
          exact leaves_pure _
        · intro problem
          exact leaves_pure false
      · exact leaves_pure false

section

variable
    (imagesKept :
      ∀ smp dir bytes,
        part (OutputDir.setFile dir (igvmName smp) bytes) = part dir)
include imagesKept

theorem leaves_rebuildVariant
    (firmware uki : Bytes) (build : BuildManifest) (smp : UInt32) :
    Leaves (fun world => part world.dir)
      (rebuildVariant tools firmware uki build smp) := by
  rw [rebuildVariant]
  cases buildSnp tools firmware uki smp with
  | error problem => exact leaves_throw problem
  | ok result =>
      apply leaves_bind (leaves_writeFile (imagesKept smp) _)
      intro _
      apply leaves_bind (leaves_readFile _)
      intro igvm
      exact leaves_pure _

theorem leaves_deriveVariant
    (firmware uki : Bytes) (build : BuildManifest) (smp : UInt32) :
    Leaves (fun world => part world.dir)
      (deriveVariant tools firmware uki build smp) := by
  apply leaves_bind (leaves_ensure _ _)
  intro _
  apply leaves_bind (leaves_isUnchanged tools build smp)
  intro unchanged
  exact
    leaves_ite (leaves_pure build)
      (leaves_rebuildVariant tools imagesKept firmware uki build smp)

theorem leaves_deriveVariants
    (firmwareKept :
      ∀ dir bytes,
        part (OutputDir.setFile dir "OVMF.fd" bytes) = part dir)
    (args : IgvmArgs) :
    Leaves (fun world => part world.dir) (deriveVariants tools args) := by
  apply leaves_bind leaves_get
  intro world
  apply leaves_bind (leaves_ensure _ _)
  intro _
  apply leaves_bind (leaves_ensure _ _)
  intro _
  apply leaves_bind (leaves_ensure _ _)
  intro _
  apply leaves_bind (leaves_ensure _ _)
  intro _
  apply leaves_bind (leaves_readManifest _)
  intro build
  apply leaves_bind (leaves_prepareInputs tools firmwareKept args build)
  intro prepared
  exact
    leaves_foldlM
      (leaves_deriveVariant tools imagesKept prepared.2.1 prepared.2.2) _ _

end

end

section

variable (tools : Tools)

/-- The manifest stays until it is written. -/
theorem leaves_manifest_deriveVariants (args : IgvmArgs) :
    Leaves manifestOf (deriveVariants tools args) :=
  @leaves_deriveVariants tools _ OutputDir.manifest (fun _ _ _ => rfl)
    (fun _ _ => rfl) args

/-- A failed run leaves the manifest alone or cuts it short. -/
theorem manifestOf_run (args : IgvmArgs) (world : World) :
    run tools args world = .ok () (worldAfter (run tools args world)) ∨
      manifestOf (worldAfter (run tools args world)) = manifestOf world ∨
        manifestOf (worldAfter (run tools args world)) = .garbled := by
  have before := (leaves_manifest_deriveVariants tools args).part_eq world
  have split :
      run tools args world =
        EStateM.bind (deriveVariants tools args)
          (fun build => writeManifest (finishManifest build)) world :=
    rfl
  rw [split, EStateM.bind]
  cases ran : deriveVariants tools args world with
  | error problem failed =>
      rw [ran] at before
      exact Or.inr (Or.inl before)
  | ok build middle =>
      rw [ran] at before
      rcases manifestOf_writeManifest (finishManifest build) middle with
        written | kept | cut
      · exact Or.inl written
      · exact Or.inr (Or.inl (kept.trans before))
      · exact Or.inr (Or.inr cut)

/-! ## What a successful run has checked and built -/

/-- What `prepareInputs` has found out about the files. -/
structure Prepared
    (world : World) (build : BuildManifest) (supplied firmware uki : Bytes) :
    Prop where
  firmwareFile : world.firmwareFile = some supplied
  ukiFile : world.dir.files "uki.efi" = some uki
  uki_sealed : fileHash tools uki = build.outputs.uki.sha256
  firmware_recorded :
    ∀ recorded, build.inputs.firmware = some recorded →
      recorded.sha256 = fileHash tools supplied
  firmware_unrecorded :
    build.inputs.firmware = none → build.snpVariants = []
  firmware_hash : fileHash tools firmware = fileHash tools supplied
  firmware_file :
    firmware = supplied ∨ world.dir.files "OVMF.fd" = some firmware

/-- The manifest with the supplied firmware recorded. -/
def recordFirmware (build : BuildManifest) (supplied : Bytes) :
    BuildManifest :=
  { build with
    inputs :=
      { firmware :=
          some { path := "OVMF.fd", sha256 := fileHash tools supplied } } }

theorem checkFirmware_eq_ok
    {build : BuildManifest} {firmwareHash : String} {world after : World}
    (ran : checkFirmware build firmwareHash world = .ok () after) :
    (∀ recorded, build.inputs.firmware = some recorded →
        recorded.sha256 = firmwareHash) ∧
      (build.inputs.firmware = none → build.snpVariants = []) ∧
        after = world := by
  rw [checkFirmware] at ran
  cases found : build.inputs.firmware with
  | some recorded =>
      rw [found] at ran
      rcases ensure_eq_ok.1 ran with ⟨same, rfl⟩
      refine ⟨?_, nofun, rfl⟩
      intro other equal
      cases equal
      exact same
  | none =>
      rw [found] at ran
      rcases ensure_eq_ok.1 ran with ⟨noVariants, rfl⟩
      exact ⟨nofun, fun _ => noVariants, rfl⟩

theorem placeFirmware_eq_ok
    {args : IgvmArgs} {supplied : Bytes} {world after : World}
    (here : world.firmwareFile = some supplied)
    (ran :
      placeFirmware tools args (fileHash tools supplied) world =
        .ok () after) :
    ∃ firmware,
      after.dir.files "OVMF.fd" = some firmware ∧
        fileHash tools firmware = fileHash tools supplied ∧
          (firmware = supplied ∨
            world.dir.files "OVMF.fd" = some firmware) ∧
            ∀ name, name ≠ "OVMF.fd" →
              after.dir.files name = world.dir.files name := by
  rw [placeFirmware] at ran
  rcases bind_eq_ok.1 ran with ⟨found, middle, looked, continued⟩
  rcases fileExists_eq_ok looked with ⟨-, rfl⟩
  cases found with
  | true =>
      rcases bind_eq_ok.1 continued with ⟨output, next, read, checked⟩
      rcases readFile_eq_ok read with ⟨present, sameDir, -⟩
      rcases ensure_eq_ok.1 checked with ⟨same, rfl⟩
      rw [sameDir]
      exact ⟨output, present, same, Or.inr present, fun _ _ => rfl⟩
  | false =>
      rcases bind_eq_ok.1 continued with ⟨firmware, next, read, written⟩
      rcases readFirmware_eq_ok read with ⟨present, sameDir, -⟩
      rcases writeFile_eq_ok written with ⟨newDir, -⟩
      rw [here] at present
      cases present
      rw [newDir, sameDir]
      refine ⟨supplied, ?_, rfl, Or.inl rfl, ?_⟩
      · exact middle.dir.setFile_files_self "OVMF.fd" supplied
      · intro name other
        exact middle.dir.setFile_files_of_ne supplied other

theorem prepareInputs_eq_ok
    {args : IgvmArgs} {build next : BuildManifest} {firmware uki : Bytes}
    {world after : World}
    (ran :
      prepareInputs tools args build world =
        .ok (next, firmware, uki) after) :
    ∃ supplied,
      Prepared tools world build supplied firmware uki ∧
        next = recordFirmware tools build supplied := by
  rw [prepareInputs] at ran
  rcases bind_eq_ok.1 ran with ⟨sealed, first, readSealed, checking⟩
  rcases readFile_eq_ok readSealed with
    ⟨sealedFile, firstDir, firstFirmware⟩
  rcases bind_eq_ok.1 checking with ⟨_, second, checked, supplying⟩
  rcases ensure_eq_ok.1 checked with ⟨ukiSealed, rfl⟩
  rcases bind_eq_ok.1 supplying with ⟨supplied, third, readSupplied, recording⟩
  rcases readFirmware_eq_ok readSupplied with
    ⟨suppliedFile, thirdDir, thirdFirmware⟩
  rcases bind_eq_ok.1 recording with ⟨_, fourth, recorded, placing⟩
  rcases checkFirmware_eq_ok recorded with
    ⟨firmwareRecorded, firmwareUnrecorded, rfl⟩
  rcases bind_eq_ok.1 placing with ⟨_, fifth, placed, opening⟩
  rcases placeFirmware_eq_ok tools (thirdFirmware.trans suppliedFile) placed
    with ⟨placedFirmware, outputFile, sameHash, origin, others⟩
  rcases bind_eq_ok.1 opening with ⟨output, sixth, readOutput, rereading⟩
  rcases readFile_eq_ok readOutput with ⟨outputRead, sixthDir, -⟩
  rcases bind_eq_ok.1 rereading with ⟨again, seventh, readAgain, returning⟩
  rcases readFile_eq_ok readAgain with ⟨ukiRead, -, -⟩
  rcases pure_eq_ok.1 returning with ⟨returned, rfl⟩
  cases returned
  have sameFirmware : placedFirmware = firmware := by
    rw [outputFile] at outputRead
    exact Option.some.inj outputRead
  have sameUki : sealed = uki := by
    rw [sixthDir, others "uki.efi" (by decide), thirdDir, firstDir,
      sealedFile] at ukiRead
    exact Option.some.inj ukiRead
  rw [sameFirmware] at sameHash origin
  rw [sameUki] at ukiSealed sealedFile
  rw [thirdDir, firstDir] at origin
  refine ⟨supplied, ?_, rfl⟩
  exact
    { firmwareFile := firstFirmware.symm.trans suppliedFile
      ukiFile := sealedFile
      uki_sealed := ukiSealed
      firmware_recorded := firmwareRecorded
      firmware_unrecorded := firmwareUnrecorded
      firmware_hash := sameHash
      firmware_file := origin }

/-- An entry holds what building its vCPU count from these inputs gives. -/
def BuiltFrom (firmware uki : Bytes) (variant : SnpVariant) : Prop :=
  ∃ result,
    buildSnp tools firmware uki variant.smp = .ok result ∧
      variant =
        snpVariant variant.smp result (fileHash tools result.igvmBytes)

theorem isUnchanged_of_true
    {build : BuildManifest} {smp : UInt32} {world after : World}
    (ran : isUnchanged tools build smp world = .ok true after) :
    smp ∈ build.snpVariants.map (·.smp) := by
  rw [isUnchanged] at ran
  cases found : build.snpVariants.find? (·.smp = smp) with
  | none =>
      rw [found] at ran
      cases ran
  | some existing =>
      apply List.mem_map.2
      have same := List.find?_some found
      exact
        ⟨existing, List.mem_of_find?_eq_some found,
          of_decide_eq_true same⟩

theorem rebuildVariant_eq_ok
    {firmware uki : Bytes} {build next : BuildManifest} {smp : UInt32}
    {world after : World}
    (ran :
      rebuildVariant tools firmware uki build smp world = .ok next after) :
    ∃ variant,
      BuiltFrom tools firmware uki variant ∧ variant.smp = smp ∧
        next =
          { build with
            snpVariants := upsertVariant variant build.snpVariants } := by
  rw [rebuildVariant] at ran
  cases built : buildSnp tools firmware uki smp with
  | error problem =>
      rw [built] at ran
      exact (throw_ne_ok ran).elim
  | ok result =>
      rw [built] at ran
      rcases bind_eq_ok.1 ran with ⟨_, middle, written, hashing⟩
      rcases writeFile_eq_ok written with ⟨middleDir, -⟩
      rcases bind_eq_ok.1 hashing with ⟨igvm, final, read, returning⟩
      rcases readFile_eq_ok read with ⟨igvmFile, -, -⟩
      rcases pure_eq_ok.1 returning with ⟨rfl, rfl⟩
      have same : igvm = result.igvmBytes := by
        rw [middleDir, OutputDir.setFile_files_self] at igvmFile
        exact (Option.some.inj igvmFile).symm
      rw [same]
      exact ⟨_, ⟨result, built, rfl⟩, rfl, rfl⟩

theorem deriveVariant_eq_ok
    {firmware uki : Bytes} {build next : BuildManifest} {smp : UInt32}
    {world after : World}
    (ran :
      deriveVariant tools firmware uki build smp world = .ok next after) :
    smp ≠ 0 ∧
      (next = build ∧ smp ∈ build.snpVariants.map (·.smp) ∨
        ∃ variant,
          BuiltFrom tools firmware uki variant ∧ variant.smp = smp ∧
            next =
              { build with
                snpVariants := upsertVariant variant build.snpVariants }) := by
  rw [deriveVariant] at ran
  rcases bind_eq_ok.1 ran with ⟨_, first, checked, looking⟩
  rcases ensure_eq_ok.1 checked with ⟨positive, rfl⟩
  rcases bind_eq_ok.1 looking with ⟨unchanged, second, looked, finishing⟩
  refine ⟨positive, ?_⟩
  cases unchanged with
  | true =>
      rcases pure_eq_ok.1 finishing with ⟨rfl, -⟩
      exact Or.inl ⟨rfl, isUnchanged_of_true tools looked⟩
  | false => exact Or.inr (rebuildVariant_eq_ok tools finishing)

/-- What the loop over some vCPU counts makes of a manifest. -/
structure Derives
    (firmware uki : Bytes) (start : BuildManifest) (smps : List UInt32)
    (finish : BuildManifest) : Prop where
  others : { start with snpVariants := finish.snpVariants } = finish
  positive : ∀ smp ∈ smps, smp ≠ 0
  nodup :
    (start.snpVariants.map (·.smp)).Nodup →
      (finish.snpVariants.map (·.smp)).Nodup
  counts :
    ∀ smp, smp ∈ finish.snpVariants.map (·.smp) ↔
      smp ∈ start.snpVariants.map (·.smp) ∨ smp ∈ smps
  built :
    ∀ variant ∈ finish.snpVariants,
      variant ∈ start.snpVariants ∨ BuiltFrom tools firmware uki variant

theorem derives_nil (firmware uki : Bytes) (start : BuildManifest) :
    Derives tools firmware uki start [] start where
  others := rfl
  positive := nofun
  nodup := id
  counts := by simp
  built := fun _ member => Or.inl member

/-- One turn of the loop extends what the turns before did. -/
theorem Derives.step
    {firmware uki : Bytes} {start middle next : BuildManifest}
    {smps : List UInt32} {smp : UInt32} {world after : World}
    (derives : Derives tools firmware uki start smps middle)
    (ran :
      deriveVariant tools firmware uki middle smp world = .ok next after) :
    Derives tools firmware uki start (smps ++ [smp]) next := by
  rcases deriveVariant_eq_ok tools ran with ⟨positive, kept | replaced⟩
  · rcases kept with ⟨rfl, present⟩
    constructor
    · exact derives.others
    · exact
        List.forall_mem_append.2
          ⟨derives.positive, List.forall_mem_singleton.2 positive⟩
    · exact derives.nodup
    · intro other
      rw [derives.counts, List.mem_append, List.mem_singleton]
      rw [derives.counts] at present
      constructor
      · rintro (old | earlier)
        · exact Or.inl old
        · exact Or.inr (Or.inl earlier)
      · rintro (old | earlier | rfl)
        · exact Or.inl old
        · exact Or.inr earlier
        · exact present
    · exact derives.built
  · rcases replaced with ⟨variant, built, rfl, rfl⟩
    constructor
    · exact
        congrArg
          (fun build : BuildManifest =>
            { build with
              snpVariants := upsertVariant variant middle.snpVariants })
          derives.others
    · exact
        List.forall_mem_append.2
          ⟨derives.positive, List.forall_mem_singleton.2 positive⟩
    · intro unique
      exact nodup_smps_upsertVariant (derives.nodup unique)
    · intro other
      rw [mem_smps_upsertVariant, derives.counts, List.mem_append,
        List.mem_singleton, or_assoc]
    · intro other member
      rcases eq_or_mem_of_mem_upsertVariant member with rfl | old
      · exact Or.inr built
      · exact derives.built other old

theorem derives_of_foldlM
    {firmware uki : Bytes} {start finish : BuildManifest}
    {smps : List UInt32} {world after : World}
    (ran :
      smps.foldlM (deriveVariant tools firmware uki) start world =
        .ok finish after) :
    Derives tools firmware uki start smps finish :=
  foldlM_invariant (Derives tools firmware uki start)
    (derives_nil tools firmware uki start)
    (fun _ _ _ _ _ _ derives stepped => derives.step tools stepped) ran

/-- What a successful run has read, checked, built and written. -/
theorem run_eq_ok
    {args : IgvmArgs} {world after : World}
    (ran : run tools args world = .ok () after) :
    ∃ build supplied firmware uki finish,
      world.dir.manifest = .holds build ∧
        Prepared tools world build supplied firmware uki ∧
          Derives tools firmware uki (recordFirmware tools build supplied)
              args.smp finish ∧
            after.dir.manifest = .holds (finishManifest finish) := by
  rw [run] at ran
  rcases bind_eq_ok.1 ran with ⟨finish, middle, derived, written⟩
  have final := writeManifest_eq_ok written
  rw [deriveVariants] at derived
  rcases bind_eq_ok.1 derived with ⟨_, first, got, inDir⟩
  cases got
  rcases bind_eq_ok.1 inDir with ⟨_, second, checked, withFirmware⟩
  rcases ensure_eq_ok.1 checked with ⟨-, rfl⟩
  rcases bind_eq_ok.1 withFirmware with ⟨_, third, checked, withUki⟩
  rcases ensure_eq_ok.1 checked with ⟨-, rfl⟩
  rcases bind_eq_ok.1 withUki with ⟨_, fourth, checked, withManifest⟩
  rcases ensure_eq_ok.1 checked with ⟨-, rfl⟩
  rcases bind_eq_ok.1 withManifest with ⟨_, fifth, checked, reading⟩
  rcases ensure_eq_ok.1 checked with ⟨-, rfl⟩
  rcases bind_eq_ok.1 reading with ⟨build, sixth, read, preparing⟩
  rcases readManifest_eq_ok read with ⟨stored, sameDir, sameFirmware⟩
  rcases bind_eq_ok.1 preparing with
    ⟨⟨next, firmware, uki⟩, seventh, prepared, looping⟩
  rcases prepareInputs_eq_ok tools prepared with
    ⟨supplied, checkedInputs, rfl⟩
  refine ⟨build, supplied, firmware, uki, finish, stored, ?_,
    derives_of_foldlM tools looping, ?_⟩
  · rcases checkedInputs with ⟨a, b, c, d, e, f, g⟩
    rw [sameFirmware] at a
    rw [sameDir] at b g
    exact ⟨a, b, c, d, e, f, g⟩
  · rw [final, OutputDir.setManifest_manifest]

/-! ## One run after the other -/

/--
What happens to a sealed directory: someone changes its files, all but the
manifest, or `confos igvm` runs, with a firmware file and a fault schedule of
its own.
-/
inductive Action where
  | edit (present : Bool) (files : String → Option Bytes)
  | igvm (args : IgvmArgs) (firmwareFile : Option Bytes)
      (faults : List (Option Fault))

/-- The outcome of one run of the command in a directory. -/
def runIn
    (dir : OutputDir) (args : IgvmArgs) (firmwareFile : Option Bytes)
    (faults : List (Option Fault)) : EStateM.Result String World Unit :=
  run tools args { dir, firmwareFile, faults }

/-- One action, whether the command fails or not. -/
def step (dir : OutputDir) : Action → Option OutputDir
  | .edit present files => some { dir with present, files }
  | .igvm args firmwareFile faults =>
      some (worldAfter (runIn tools dir args firmwareFile faults)).dir

/-- One action, where the command has to succeed. -/
def successStep (dir : OutputDir) : Action → Option OutputDir
  | .edit present files => some { dir with present, files }
  | .igvm args firmwareFile faults =>
      match runIn tools dir args firmwareFile faults with
      | .ok _ after => some after.dir
      | .error _ _ => none

end

end Confos.Image.Derivation
