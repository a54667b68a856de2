import Confos.Image.BuildCommand
import Confos.Image.Undisturbed

/-!
# Repeated runs of `confos igvm`

A run leaves a manifest and files that depend on the set of its vCPU counts
alone.  The cells of the loop decide both, for the manifest is written sorted
and everything else in the directory stays as the first run left it.
-/

namespace Confos.Image.RepeatedRuns

open Confos.Library
open Confos.Library.ByteStrings
open Confos.Library.Effects
open Confos.Library.Cells
open Confos.Igvm.Build
open Confos.Image.Manifest
open Confos.Image.Files
open Confos.Image.BuildCommand (sampleTools)
open Confos.Image.IgvmCommand
open Confos.Image.Derivation
open Confos.Image.Undisturbed

/-! ## Sorted entries -/

/-- The entries as they are written. -/
def sortedVariants (variants : List SnpVariant) : List SnpVariant :=
  variants.insertionSort fun left right => left.smp ≤ right.smp

section

variable {variants others : List SnpVariant}

theorem pairwise_sortedVariants (variants : List SnpVariant) :
    (sortedVariants variants).Pairwise fun left right =>
      left.smp ≤ right.smp := by
  have total :
      Std.Total fun left right : SnpVariant => left.smp ≤ right.smp :=
    ⟨fun left right => UInt32.le_total left.smp right.smp⟩
  have transitive :
      IsTrans SnpVariant fun left right => left.smp ≤ right.smp :=
    ⟨fun _ _ _ => UInt32.le_trans⟩
  exact List.pairwise_insertionSort _ variants

theorem find?_eq_some_iff_mem
    (nodup : (variants.map (·.smp)).Nodup) {smp : UInt32}
    {variant : SnpVariant} :
    variants.find? (·.smp = smp) = some variant ↔
      variant ∈ variants ∧ variant.smp = smp := by
  constructor
  · intro found
    have same := List.find?_some found
    exact ⟨List.mem_of_find?_eq_some found, of_decide_eq_true same⟩
  · rintro ⟨member, rfl⟩
    cases found : variants.find? (·.smp = variant.smp) with
    | none =>
        have absent := List.find?_eq_none.1 found variant member
        simp at absent
    | some other =>
        have same := List.find?_some found
        rw [List.inj_on_of_nodup_map nodup
          (List.mem_of_find?_eq_some found) member (of_decide_eq_true same)]

theorem find?_sortedVariants
    (nodup : (variants.map (·.smp)).Nodup) (smp : UInt32) :
    (sortedVariants variants).find? (·.smp = smp) =
      variants.find? (·.smp = smp) := by
  apply Option.ext
  intro variant
  rw [sortedVariants,
    find?_eq_some_iff_mem (nodup_insertionSort_smps nodup),
    find?_eq_some_iff_mem nodup]
  exact and_congr_left fun _ => List.mem_insertionSort _

/-- What is found for each count decides the sorted entries. -/
theorem sortedVariants_eq
    (nodup : (variants.map (·.smp)).Nodup)
    (otherNodup : (others.map (·.smp)).Nodup)
    (same :
      ∀ smp,
        variants.find? (·.smp = smp) = others.find? (·.smp = smp)) :
    sortedVariants variants = sortedVariants others := by
  have members (variant : SnpVariant) :
      variant ∈ variants ↔ variant ∈ others := by
    have here :=
      @find?_eq_some_iff_mem variants nodup variant.smp variant
    have there :=
      @find?_eq_some_iff_mem others otherNodup variant.smp variant
    rw [same] at here
    simpa using here.symm.trans there
  have permuted : variants.Perm others :=
    (List.perm_ext_iff_of_nodup (List.Nodup.of_map _ nodup)
      (List.Nodup.of_map _ otherNodup)).2 members
  apply List.Perm.eq_of_pairwise _ (pairwise_sortedVariants variants)
    (pairwise_sortedVariants others)
  · exact
      (List.perm_insertionSort _ variants).trans
        (permuted.trans (List.perm_insertionSort _ others).symm)
  · intro left right leftMember rightMember lower upper
    apply List.inj_on_of_nodup_map nodup
    · exact (List.mem_insertionSort _).1 leftMember
    · exact (members right).2 ((List.mem_insertionSort _).1 rightMember)
    · exact UInt32.le_antisymm lower upper

end

/-- The entries of a written manifest are strictly sorted. -/
theorem strictlySorted_finishManifest
    {build : BuildManifest} (nodup : (build.snpVariants.map (·.smp)).Nodup) :
    (finishManifest build).snpVariants.Pairwise fun left right =>
      left.smp < right.smp := by
  have distinct := nodup_insertionSort_smps nodup
  rw [List.Nodup, List.pairwise_map] at distinct
  exact
    ((pairwise_sortedVariants build.snpVariants).and distinct).imp
      fun both => UInt32.lt_of_le_of_ne both.1 both.2

/-! ## What is written -/

/-- The world once the manifest is written. -/
def written (build : BuildManifest) (world : World) : World :=
  world.setManifest (.holds (finishManifest build))

section

variable {build next : BuildManifest} {world after : World}

/-- The entries decide the manifest that is written. -/
theorem finishManifest_eq
    (others : untagged next = untagged build)
    (entries :
      ∀ smp,
        next.snpVariants.find? (·.smp = smp) =
          build.snpVariants.find? (·.smp = smp))
    (nodup : (build.snpVariants.map (·.smp)).Nodup)
    (nextNodup : (next.snpVariants.map (·.smp)).Nodup) :
    finishManifest next = finishManifest build := by
  have sorted :
      sortedVariants next.snpVariants = sortedVariants build.snpVariants :=
    sortedVariants_eq nextNodup nodup entries
  rcases build with ⟨version, ⟨memory, format, platform⟩, inputs, outputs,
    variants, tdx⟩
  rcases next with ⟨otherVersion, ⟨otherMemory, otherFormat,
    otherPlatform⟩, otherInputs, otherOutputs, otherVariants, otherTdx⟩
  simp only [untagged, BuildManifest.mk.injEq,
    ManifestConfig.mk.injEq] at others
  rcases others with ⟨rfl, ⟨rfl, rfl, -⟩, rfl, rfl, -, rfl⟩
  simp only [finishManifest, BuildManifest.mk.injEq, and_true, true_and]
  exact sorted

/-- The cells decide what is written, and the files with it. -/
theorem written_eq
    (frame : SameFrame build world next after)
    (cells : cellsOf next after = cellsOf build world)
    (nodup : (build.snpVariants.map (·.smp)).Nodup)
    (nextNodup : (next.snpVariants.map (·.smp)).Nodup) :
    written next after = written build world := by
  have manifests : finishManifest next = finishManifest build :=
    finishManifest_eq frame.untagged_eq
      (fun smp => congrArg Prod.fst (congrFun cells smp)) nodup nextNodup
  have files : after.dir.files = world.dir.files := by
    funext name
    by_cases image : ∃ smp, name = igvmName smp
    · rcases image with ⟨smp, rfl⟩
      exact congrArg Prod.snd (congrFun cells smp)
    · exact frame.files name (not_exists.1 image)
  rcases world with ⟨⟨present, manifest, worldFiles⟩, firmwareFile, faults⟩
  rcases after with ⟨⟨otherPresent, otherManifest, otherFiles⟩,
    otherFirmware, otherFaults⟩
  cases frame.faults
  cases frame.firmwareFile
  cases frame.present
  cases files
  rw [written, written, manifests]
  rfl

/-- Writing the manifest changes no cell. -/
theorem cellsOf_written (nodup : (build.snpVariants.map (·.smp)).Nodup) :
    cellsOf (finishManifest build) (written build world) =
      cellsOf build world := by
  funext smp
  apply Prod.ext
  · exact find?_sortedVariants nodup smp
  · rfl

theorem sameFrame_written (build : BuildManifest) (world : World) :
    SameFrame build world (finishManifest build) (written build world) :=
  ⟨rfl, rfl, rfl, rfl, fun _ _ => rfl⟩

end

/-! ## Before the loop -/

section

variable (tools : Tools)

/-- What a run without faults finds and leaves before its loop. -/
structure Opened
    (world : World) (build : BuildManifest) (supplied firmware uki : Bytes)
    (middle : World) : Prop where
  present : world.dir.present = true
  stored : world.dir.manifest = .holds build
  version : build.version = manifestVersion
  firmwareFile : world.firmwareFile = some supplied
  ukiFile : world.dir.files "uki.efi" = some uki
  uki_sealed : fileHash tools uki = build.outputs.uki.sha256
  recorded :
    ∀ recorded, build.inputs.firmware = some recorded →
      recorded.sha256 = fileHash tools supplied
  unrecorded : build.inputs.firmware = none → build.snpVariants = []
  placed :
    world.dir.files "OVMF.fd" = some firmware ∧
          fileHash tools firmware = fileHash tools supplied ∧
        world = middle ∨
      world.dir.files "OVMF.fd" = none ∧ firmware = supplied ∧
        world.setFile "OVMF.fd" supplied = middle

variable {tools} {world after middle : World} {build next : BuildManifest}
    {supplied firmware uki : Bytes}

theorem Opened.faults
    (opened : Opened tools world build supplied firmware uki middle) :
    middle.faults = world.faults := by
  rcases opened.placed with ⟨-, -, rfl⟩ | ⟨-, -, rfl⟩
  · rfl
  · rfl

theorem Opened.middle_firmwareFile
    (opened : Opened tools world build supplied firmware uki middle) :
    middle.firmwareFile = some supplied := by
  rcases opened.placed with ⟨-, -, rfl⟩ | ⟨-, -, rfl⟩
  · exact opened.firmwareFile
  · exact opened.firmwareFile

theorem Opened.middle_present
    (opened : Opened tools world build supplied firmware uki middle) :
    middle.dir.present = true := by
  rcases opened.placed with ⟨-, -, rfl⟩ | ⟨-, -, rfl⟩
  · exact opened.present
  · exact opened.present

theorem Opened.middle_uki
    (opened : Opened tools world build supplied firmware uki middle) :
    middle.dir.files "uki.efi" = some uki := by
  rcases opened.placed with ⟨-, -, rfl⟩ | ⟨-, -, rfl⟩
  · exact opened.ukiFile
  · exact
      (world.dir.setFile_files_of_ne supplied (by decide)).trans
        opened.ukiFile

theorem Opened.middle_firmware
    (opened : Opened tools world build supplied firmware uki middle) :
    middle.dir.files "OVMF.fd" = some firmware ∧
      fileHash tools firmware = fileHash tools supplied := by
  rcases opened.placed with ⟨found, same, rfl⟩ | ⟨-, rfl, rfl⟩
  · exact ⟨found, same⟩
  · exact ⟨world.dir.setFile_files_self "OVMF.fd" firmware, rfl⟩

theorem checkFirmware_undisturbed {firmwareHash : String} :
    checkFirmware build firmwareHash world = .ok () after ↔
      ((∀ recorded, build.inputs.firmware = some recorded →
          recorded.sha256 = firmwareHash) ∧
        (build.inputs.firmware = none → build.snpVariants = [])) ∧
          world = after := by
  constructor
  · intro ran
    rcases checkFirmware_eq_ok ran with ⟨recorded, unrecorded, same⟩
    exact ⟨⟨recorded, unrecorded⟩, same.symm⟩
  · rintro ⟨⟨recorded, unrecorded⟩, same⟩
    rw [checkFirmware]
    cases found : build.inputs.firmware with
    | none => exact ensure_eq_ok.2 ⟨unrecorded found, same⟩
    | some entry => exact ensure_eq_ok.2 ⟨recorded entry found, same⟩

theorem placeFirmware_undisturbed
    {args : IgvmArgs} (undisturbed : world.faults = [])
    (given : world.firmwareFile = some supplied) :
    placeFirmware tools args (fileHash tools supplied) world =
        .ok () after ↔
      (∃ firmware, world.dir.files "OVMF.fd" = some firmware ∧
            fileHash tools firmware = fileHash tools supplied ∧
          world = after) ∨
        world.dir.files "OVMF.fd" = none ∧
          world.setFile "OVMF.fd" supplied = after := by
  rw [placeFirmware, bind_eq_ok]
  cases found : world.dir.files "OVMF.fd" with
  | some firmware =>
      have looks : fileExists "OVMF.fd" world = .ok true world := by
        rw [fileExists_eq, found, Option.isSome_some]
      constructor
      · rintro ⟨exists?, between, looked, continued⟩
        cases looks.symm.trans looked
        rcases bind_eq_ok.1 continued with ⟨output, there, read, checked⟩
        rcases (readFile_undisturbed undisturbed).1 read with ⟨same, rfl⟩
        rcases ensure_eq_ok.1 checked with ⟨hashes, rfl⟩
        cases found.symm.trans same
        exact Or.inl ⟨firmware, rfl, hashes, rfl⟩
      · rintro (⟨other, same, hashes, rfl⟩ | ⟨impossible, -⟩)
        · cases same
          refine ⟨true, world, looks, ?_⟩
          apply bind_eq_ok.2
          exact
            ⟨firmware, world, (readFile_undisturbed undisturbed).2
              ⟨found, rfl⟩, ensure_eq_ok.2 ⟨hashes, rfl⟩⟩
        · cases impossible
  | none =>
      have looks : fileExists "OVMF.fd" world = .ok false world := by
        rw [fileExists_eq, found, Option.isSome_none]
      constructor
      · rintro ⟨exists?, between, looked, continued⟩
        cases looks.symm.trans looked
        rcases bind_eq_ok.1 continued with ⟨firmware, there, read, wrote⟩
        rcases (readFirmware_undisturbed undisturbed).1 read with
          ⟨same, rfl⟩
        cases given.symm.trans same
        exact Or.inr ⟨rfl, (writeFile_undisturbed undisturbed).1 wrote⟩
      · rintro (⟨firmware, impossible, -⟩ | ⟨-, wrote⟩)
        · cases impossible
        · refine ⟨false, world, looks, ?_⟩
          apply bind_eq_ok.2
          exact
            ⟨supplied, world, (readFirmware_undisturbed undisturbed).2
              ⟨given, rfl⟩, (writeFile_undisturbed undisturbed).2 wrote⟩

theorem opened_of_prepareInputs
    {args : IgvmArgs} (undisturbed : world.faults = [])
    (present : world.dir.present = true)
    (stored : world.dir.manifest = .holds build)
    (version : build.version = manifestVersion)
    (ran :
      prepareInputs tools args build world =
        .ok (next, firmware, uki) middle) :
    ∃ supplied,
      Opened tools world build supplied firmware uki middle ∧
        next = recordFirmware tools build supplied := by
  rw [prepareInputs] at ran
  rcases bind_eq_ok.1 ran with ⟨sealed, first, readSealed, checking⟩
  rcases (readFile_undisturbed undisturbed).1 readSealed with
    ⟨ukiFile, rfl⟩
  rcases bind_eq_ok.1 checking with ⟨_, second, checked, supplying⟩
  rcases ensure_eq_ok.1 checked with ⟨ukiSealed, rfl⟩
  rcases bind_eq_ok.1 supplying with ⟨supplied, third, readSupplied, recording⟩
  rcases (readFirmware_undisturbed undisturbed).1 readSupplied with
    ⟨firmwareFile, rfl⟩
  rcases bind_eq_ok.1 recording with ⟨_, fourth, recorded, placing⟩
  rcases checkFirmware_undisturbed.1 recorded with
    ⟨⟨firmwareRecorded, firmwareUnrecorded⟩, rfl⟩
  rcases bind_eq_ok.1 placing with ⟨_, fifth, placed, opening⟩
  have facts :=
    (placeFirmware_undisturbed undisturbed firmwareFile).1 placed
  have sameFaults : fifth.faults = [] := by
    rcases facts with ⟨_, _, _, rfl⟩ | ⟨_, rfl⟩
    · exact undisturbed
    · exact undisturbed
  rcases bind_eq_ok.1 opening with ⟨output, sixth, readOutput, rereading⟩
  rcases (readFile_undisturbed sameFaults).1 readOutput with
    ⟨outputFile, rfl⟩
  rcases bind_eq_ok.1 rereading with ⟨again, seventh, readAgain, returning⟩
  rcases (readFile_undisturbed sameFaults).1 readAgain with ⟨ukiAgain, rfl⟩
  rcases pure_eq_ok.1 returning with ⟨returned, rfl⟩
  cases returned
  refine ⟨supplied, ?_, rfl⟩
  rcases facts with ⟨firmware, found, hashes, rfl⟩ | ⟨absent, rfl⟩
  · cases ukiFile.symm.trans ukiAgain
    cases found.symm.trans outputFile
    exact
      ⟨present, stored, version, firmwareFile, ukiFile, ukiSealed,
        firmwareRecorded, firmwareUnrecorded, Or.inl ⟨found, hashes, rfl⟩⟩
  · have sameUki :=
      (world.dir.setFile_files_of_ne supplied
        (show "uki.efi" ≠ "OVMF.fd" by decide)).symm.trans ukiAgain
    have sameFirmware :=
      (world.dir.setFile_files_self "OVMF.fd" supplied).symm.trans outputFile
    cases ukiFile.symm.trans sameUki
    cases sameFirmware
    exact
      ⟨present, stored, version, firmwareFile, ukiFile, ukiSealed,
        firmwareRecorded, firmwareUnrecorded, Or.inr ⟨absent, rfl, rfl⟩⟩

theorem prepareInputs_of_opened
    (args : IgvmArgs) (undisturbed : world.faults = [])
    (opened : Opened tools world build supplied firmware uki middle) :
    prepareInputs tools args build world =
      .ok (recordFirmware tools build supplied, firmware, uki) middle := by
  have middleFaults := opened.faults.trans undisturbed
  have places :
      placeFirmware tools args (fileHash tools supplied) world =
        .ok () middle := by
    apply (placeFirmware_undisturbed undisturbed opened.firmwareFile).2
    rcases opened.placed with ⟨found, hashes, same⟩ | ⟨absent, -, same⟩
    · exact Or.inl ⟨firmware, found, hashes, same⟩
    · exact Or.inr ⟨absent, same⟩
  apply bind_eq_ok.2
  refine
    ⟨uki, world, (readFile_undisturbed undisturbed).2
      ⟨opened.ukiFile, rfl⟩, ?_⟩
  apply bind_eq_ok.2
  refine ⟨(), world, ensure_eq_ok.2 ⟨opened.uki_sealed, rfl⟩, ?_⟩
  apply bind_eq_ok.2
  refine
    ⟨supplied, world, (readFirmware_undisturbed undisturbed).2
      ⟨opened.firmwareFile, rfl⟩, ?_⟩
  apply bind_eq_ok.2
  refine
    ⟨(), world, checkFirmware_undisturbed.2
      ⟨⟨opened.recorded, opened.unrecorded⟩, rfl⟩, ?_⟩
  apply bind_eq_ok.2
  refine ⟨(), middle, places, ?_⟩
  apply bind_eq_ok.2
  refine
    ⟨firmware, middle, (readFile_undisturbed middleFaults).2
      ⟨opened.middle_firmware.1, rfl⟩, ?_⟩
  apply bind_eq_ok.2
  exact
    ⟨uki, middle, (readFile_undisturbed middleFaults).2
      ⟨opened.middle_uki, rfl⟩, rfl⟩

/-- A run that is not disturbed: what it opens, its loop, and what it writes. -/
theorem run_undisturbed {args : IgvmArgs} (undisturbed : world.faults = []) :
    run tools args world = .ok () after ↔
      ∃ build supplied firmware uki middle finish final,
        Opened tools world build supplied firmware uki middle ∧
          args.smp.foldlM (deriveVariant tools firmware uki)
              (recordFirmware tools build supplied) middle =
            .ok finish final ∧
            written finish final = after := by
  rw [run, bind_eq_ok]
  constructor
  · rintro ⟨finish, final, derived, wrote⟩
    rw [deriveVariants] at derived
    rcases bind_eq_ok.1 derived with ⟨_, first, got, inDir⟩
    cases got
    rcases bind_eq_ok.1 inDir with ⟨_, second, checked, withFirmware⟩
    rcases ensure_eq_ok.1 checked with ⟨present, rfl⟩
    rcases bind_eq_ok.1 withFirmware with ⟨_, third, checked, withUki⟩
    rcases ensure_eq_ok.1 checked with ⟨-, rfl⟩
    rcases bind_eq_ok.1 withUki with ⟨_, fourth, checked, withManifest⟩
    rcases ensure_eq_ok.1 checked with ⟨-, rfl⟩
    rcases bind_eq_ok.1 withManifest with ⟨_, fifth, checked, reading⟩
    rcases ensure_eq_ok.1 checked with ⟨-, rfl⟩
    rcases bind_eq_ok.1 reading with ⟨build, sixth, read, preparing⟩
    rcases (readManifest_undisturbed undisturbed).1 read with
      ⟨stored, version, rfl⟩
    rcases bind_eq_ok.1 preparing with
      ⟨⟨next, firmware, uki⟩, middle, prepared, looped⟩
    rcases opened_of_prepareInputs undisturbed present stored version
        prepared with
      ⟨supplied, opened, rfl⟩
    have middleFaults := opened.faults.trans undisturbed
    have frame :=
      (cells_of_loop tools firmware uki middleFaults looped).2
    exact
      ⟨build, supplied, firmware, uki, middle, finish, final, opened, looped,
        (writeManifest_undisturbed (frame.faults.trans middleFaults)).1
          wrote⟩
  · rintro ⟨build, supplied, firmware, uki, middle, finish, final, opened,
      looped, wrote⟩
    have middleFaults := opened.faults.trans undisturbed
    have frame :=
      (cells_of_loop tools firmware uki middleFaults looped).2
    refine
      ⟨finish, final, ?_,
        (writeManifest_undisturbed (frame.faults.trans middleFaults)).2
          wrote⟩
    apply bind_eq_ok.2
    refine ⟨world, world, rfl, ?_⟩
    apply bind_eq_ok.2
    refine ⟨(), world, ensure_eq_ok.2 ⟨opened.present, rfl⟩, ?_⟩
    apply bind_eq_ok.2
    refine
      ⟨(), world, ensure_eq_ok.2
        ⟨by rw [opened.firmwareFile]; rfl, rfl⟩, ?_⟩
    apply bind_eq_ok.2
    refine
      ⟨(), world, ensure_eq_ok.2 ⟨by rw [opened.ukiFile]; rfl, rfl⟩, ?_⟩
    apply bind_eq_ok.2
    refine
      ⟨(), world, ensure_eq_ok.2
        ⟨by rw [opened.stored]; rintro ⟨⟩, rfl⟩, ?_⟩
    apply bind_eq_ok.2
    refine
      ⟨build, world, (readManifest_undisturbed undisturbed).2
        ⟨opened.stored, opened.version, rfl⟩, ?_⟩
    apply bind_eq_ok.2
    exact
      ⟨_, middle, prepareInputs_of_opened args undisturbed opened, looped⟩

/-! ## One run after the other -/

theorem Opened.recordFirmware_inputs
    {finish : BuildManifest} {final : World}
    (frame :
      SameFrame (recordFirmware tools build supplied) middle finish final) :
    recordFirmware tools (finishManifest finish) supplied =
      finishManifest finish := by
  have inputs := congrArg BuildManifest.inputs frame.untagged_eq
  have same :
      finish.inputs =
        { firmware :=
            some { path := "OVMF.fd", sha256 := fileHash tools supplied } } :=
    inputs
  rw [recordFirmware, ← same]
  rfl

/-- What a run has written can be opened again. -/
theorem Opened.again
    {finish : BuildManifest} {final : World}
    (opened : Opened tools world build supplied firmware uki middle)
    (frame :
      SameFrame (recordFirmware tools build supplied) middle finish final) :
    Opened tools (written finish final) (finishManifest finish) supplied
      firmware uki (written finish final) := by
  have version := congrArg BuildManifest.version frame.untagged_eq
  have inputs := congrArg BuildManifest.inputs frame.untagged_eq
  have outputs := congrArg BuildManifest.outputs frame.untagged_eq
  constructor
  · exact frame.present.trans opened.middle_present
  · rfl
  · exact version.trans opened.version
  · exact frame.firmwareFile.trans opened.middle_firmwareFile
  · exact
      (frame.files "uki.efi" fun smp => igvmName_ne smp (by decide)).trans
        opened.middle_uki
  · have sealedUki := opened.uki_sealed
    rw [show build.outputs = finish.outputs from outputs.symm] at sealedUki
    exact sealedUki
  · intro recorded found
    have same :
        finish.inputs.firmware =
          some { path := "OVMF.fd", sha256 := fileHash tools supplied } :=
      congrArg ManifestInputs.firmware inputs
    cases same.symm.trans found
    rfl
  · intro absent
    have same :
        finish.inputs.firmware =
          some { path := "OVMF.fd", sha256 := fileHash tools supplied } :=
      congrArg ManifestInputs.firmware inputs
    cases same.symm.trans absent
  · exact
      Or.inl
        ⟨(frame.files "OVMF.fd" fun smp => igvmName_ne smp (by decide)).trans
            opened.middle_firmware.1,
          opened.middle_firmware.2, rfl⟩

/-- The run over some counts, where the loop over the cells succeeds. -/
theorem Opened.run_of_cells
    (opened : Opened tools world build supplied firmware uki middle)
    (undisturbed : world.faults = []) (args : IgvmArgs)
    {cells : UInt32 → VariantCell}
    (nodup : (build.snpVariants.map (·.smp)).Nodup)
    (looped :
      args.smp.foldlM (updateAt (deriveCell tools firmware uki))
        (cellsOf (recordFirmware tools build supplied) middle) =
          .ok cells) :
    ∃ finish final,
      run tools args world = .ok () (written finish final) ∧
        cellsOf finish final = cells ∧
          SameFrame (recordFirmware tools build supplied) middle finish
              final ∧
            (finish.snpVariants.map (·.smp)).Nodup := by
  rcases loop_of_cells tools firmware uki
      (opened.faults.trans undisturbed) looped with
    ⟨finish, final, ran, sameCells, frame⟩
  refine ⟨finish, final, ?_, sameCells, frame, ?_⟩
  · exact
      (run_undisturbed undisturbed).2
        ⟨build, supplied, firmware, uki, middle, finish, final, opened, ran,
          rfl⟩
  · exact (derives_of_foldlM tools ran).nodup nodup

end

/--
A run over the same counts in another order or with repetitions writes the
same, as do two runs over the parts of the list and a second run over all of
it; and the entries it writes are strictly sorted.
-/
theorem igvm_runs_repeat
    (tools : Tools) (args : IgvmArgs) {world after : World}
    {build : BuildManifest}
    (undisturbed : world.faults = [])
    (stored : world.dir.manifest = .holds build)
    (unique : (build.snpVariants.map (·.smp)).Nodup)
    (ran : run tools args world = .ok () after) :
    (∀ smps nonempty, (∀ smp, smp ∈ smps ↔ smp ∈ args.smp) →
        run tools { args with smp := smps, smp_nonempty := nonempty } world =
          .ok () after) ∧
      (∀ first second firstNonempty secondNonempty,
        args.smp = first ++ second →
          ∃ between,
            run tools
                { args with smp := first, smp_nonempty := firstNonempty }
                world = .ok () between ∧
              run tools
                  { args with smp := second, smp_nonempty := secondNonempty }
                  between = .ok () after) ∧
        run tools args after = .ok () after ∧
          ∃ manifest, after.dir.manifest = .holds manifest ∧
            manifest.snpVariants.Pairwise fun left right =>
              left.smp < right.smp := by
  rcases (run_undisturbed undisturbed).1 ran with
    ⟨opens, supplied, firmware, uki, middle, finish, final, opened, looped,
      rfl⟩
  cases stored.symm.trans opened.stored
  have middleFaults := opened.faults.trans undisturbed
  have finishNodup := (derives_of_foldlM tools looped).nodup unique
  have idempotent := deriveCell_idempotent tools firmware uki
  rcases cells_of_loop tools firmware uki middleFaults looped with
    ⟨cells, frame⟩
  refine ⟨?_, ?_, ?_, finishManifest finish, rfl,
    strictlySorted_finishManifest finishNodup⟩
  · intro smps nonempty same
    rcases opened.run_of_cells undisturbed
        { args with smp := smps, smp_nonempty := nonempty } unique
        (foldlM_updateAt_of_same_keys idempotent same cells) with
      ⟨other, otherFinal, otherRan, sameCells, otherFrame, otherNodup⟩
    rw [← written_eq (frame.symm.trans otherFrame) sameCells finishNodup
      otherNodup]
    exact otherRan
  · intro first second firstNonempty secondNonempty split
    rw [split, List.foldlM_append] at cells
    rcases Fallible.bind_eq_ok.1 cells with ⟨halfway, firstCells, secondCells⟩
    rcases opened.run_of_cells undisturbed
        { args with smp := first, smp_nonempty := firstNonempty } unique
        firstCells with
      ⟨between, betweenFinal, firstRan, betweenCells, betweenFrame,
        betweenNodup⟩
    refine ⟨written between betweenFinal, firstRan, ?_⟩
    have reopened := opened.again betweenFrame
    have reopenedFaults :
        (written between betweenFinal).faults = [] :=
      betweenFrame.faults.trans middleFaults
    have record := Opened.recordFirmware_inputs betweenFrame
    rw [← betweenCells, ← cellsOf_written betweenNodup] at secondCells
    rw [← record] at secondCells
    rcases reopened.run_of_cells reopenedFaults
        { args with smp := second, smp_nonempty := secondNonempty }
        (nodup_insertionSort_smps betweenNodup) secondCells with
      ⟨last, lastFinal, secondRan, lastCells, lastFrame, lastNodup⟩
    rw [record] at lastFrame
    rw [← written_eq
      (frame.symm.trans
        (betweenFrame.trans
          ((sameFrame_written between betweenFinal).trans lastFrame)))
      lastCells finishNodup lastNodup]
    exact secondRan
  · have reopened := opened.again frame
    have record := Opened.recordFirmware_inputs frame
    have again := foldlM_updateAt_again idempotent cells
    rw [← cellsOf_written finishNodup] at again
    rw [← record] at again
    rcases reopened.run_of_cells (frame.faults.trans middleFaults) args
        (nodup_insertionSort_smps finishNodup) again with
      ⟨last, lastFinal, lastRan, lastCells, lastFrame, lastNodup⟩
    rw [record] at lastFrame lastCells
    rw [cellsOf_written finishNodup] at lastCells
    rw [written_eq ((sameFrame_written finish final).trans lastFrame)
      lastCells finishNodup lastNodup] at lastRan
    exact lastRan

/-! ## A repeated count -/

/-- A sealed directory without images. -/
def sealedManifest : BuildManifest where
  version := manifestVersion
  build := { memory := "2G", format := "raw", platform := "snp" }
  inputs := {}
  outputs :=
    { uki := { path := "uki.efi", sha256 := fileHash sampleTools [1] } }

def sealedWorld : World where
  dir :=
    { manifest := .holds sealedManifest
      files := fun name => [("uki.efi", [1])].lookup name }
  firmwareFile := some (Igvm.Ovmf.hobFirmware 0x810000)

def repeatedCount : IgvmArgs where
  dir := "out"
  smp := [1, 1]
  firmware := "OVMF.fd"
  smp_nonempty := List.cons_ne_nil _ _

theorem igvm_runs_repeat_sealed :
    ∃ after,
      run sampleTools repeatedCount sealedWorld = .ok () after ∧
        run sampleTools repeatedCount after = .ok () after := by
  rcases exists_eq_ok_of_succeeds
      (show succeeds (run sampleTools repeatedCount sealedWorld) = true by
        decide +kernel) with
    ⟨_, after, ran⟩
  have repeats :=
    @igvm_runs_repeat sampleTools repeatedCount sealedWorld after
      sealedManifest rfl rfl List.nodup_nil ran
  exact ⟨after, ran, repeats.2.2.1⟩

end Confos.Image.RepeatedRuns
