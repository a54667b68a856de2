import Confos.Image.Provenance
import Confos.Image.RepeatedRuns

/-!
# Failed runs of `confos igvm`

A run that fails may have placed the firmware and rebuilt images, but the
entries that a later run writes do not depend on the images it finds: one that
it keeps is the one it would build.  What a failed run can spoil is the
firmware it has placed before anything is recorded, or a file whose writing
is cut short.
-/

namespace Confos.Image.FailedRuns

open Confos.Library
open Confos.Library.ByteStrings
open Confos.Library.Cells
open Confos.Library.Effects
open Confos.Igvm.Build
open Confos.Image.Manifest
open Confos.Image.Files
open Confos.Image.BuildCommand (sampleTools)
open Confos.Image.IgvmCommand
open Confos.Image.Derivation
open Confos.Image.Undisturbed
open Confos.Image.RepeatedRuns
open Confos.Image.Provenance (HasProvenance)

/-! ## Runs that fail -/

/-- A run: its arguments, the file at its `--firmware` path, and its faults. -/
structure Attempt where
  args : IgvmArgs
  firmwareFile : Option Bytes
  faults : List (Option Fault)

def Attempt.world (attempt : Attempt) (dir : OutputDir) : World :=
  { dir, firmwareFile := attempt.firmwareFile, faults := attempt.faults }

section

variable (tools : Tools)

/-- The directory behind a run that returns an error. -/
def failedRun (dir : OutputDir) (attempt : Attempt) : Option OutputDir :=
  match run tools attempt.args (attempt.world dir) with
  | .ok _ _ => none
  | .error _ after => some after.dir

/-! ## The checks and the rest -/

/-- Everything before the firmware is placed. -/
def checkSealed (args : IgvmArgs) : Program (BuildManifest × String) := do
  let world ← get
  ensure (world.dir.present = true)
    s!"output directory not found: {args.dir}"
  ensure (world.firmwareFile.isSome = true)
    s!"firmware not found: {args.firmware}"
  ensure ((world.dir.files "uki.efi").isSome = true)
    s!"uki.efi not found in {args.dir}. Run `confos build` first."
  ensure (world.dir.manifest ≠ .missing)
    s!"manifest.json not found in {args.dir}. Run `confos build` first."
  let build ← readManifest args.dir
  let sealed ← readFile "uki.efi"
  ensure (fileHash tools sealed = build.outputs.uki.sha256)
    "UKI differs from the sealed manifest; build a new image before deriving SNP variants"
  let supplied ← readFirmware args.firmware
  checkFirmware build (fileHash tools supplied)
  return (build, fileHash tools supplied)

/-- The loop over the vCPU counts with what it reads. -/
def deriveSealed
    (args : IgvmArgs) (build : BuildManifest) (firmwareHash : String) :
    Program BuildManifest := do
  let firmware ← readFile "OVMF.fd"
  let uki ← readFile "uki.efi"
  args.smp.foldlM (deriveVariant tools firmware uki)
    { build with
      inputs :=
        { firmware := some { path := "OVMF.fd", sha256 := firmwareHash } } }

theorem deriveVariants_eq (args : IgvmArgs) :
    deriveVariants tools args =
      checkSealed tools args >>= fun opened =>
        placeFirmware tools args opened.2 >>= fun _ =>
          deriveSealed tools args opened.1 opened.2 := by
  simp only [deriveVariants, prepareInputs, checkSealed, deriveSealed,
    bind_assoc, pure_bind]

/-! ## What a failed run can spoil -/

/-- The next operation writes a part of its bytes and fails. -/
def CutShort (world : World) : Prop :=
  ∃ left, world.faults.head? = some (some (.torn left))

/-- A run gets to write a copy of its firmware, and finds this world then. -/
def Copies
    (args : IgvmArgs) (world : World) (build : BuildManifest)
    (here : World) : Prop :=
  ∃ firmwareHash middle bytes,
    checkSealed tools args world = .ok (build, firmwareHash) middle ∧
      middle.dir.files "OVMF.fd" = none ∧
        readFirmware args.firmware middle = .ok bytes here

/--
A run copies no firmware that the manifest does not record, and is not cut
short while it writes `OVMF.fd` or `manifest.json`.
-/
structure Careful (args : IgvmArgs) (world : World) : Prop where
  copy :
    ∀ build here, Copies tools args world build here →
      here.faults.head? = some (some .refused) ∨
        build.inputs.firmware ≠ none ∧ ¬ CutShort here
  manifest :
    ∀ build here, deriveVariants tools args world = .ok build here →
      ¬ CutShort here

/-- What a careful run that fails may have changed in a directory. -/
structure Spared
    (known : Set Bytes) (build : BuildManifest) (dir after : OutputDir) :
    Prop where
  present : after.present = dir.present
  manifest : after.manifest = dir.manifest
  files :
    ∀ name, name ≠ "OVMF.fd" → (∀ smp, name ≠ igvmName smp) →
      after.files name = dir.files name
  firmware :
    after.files "OVMF.fd" = dir.files "OVMF.fd" ∨
      dir.files "OVMF.fd" = none ∧
        ∃ recorded placed,
          build.inputs.firmware = some recorded ∧
            after.files "OVMF.fd" = some placed ∧ placed ∈ known ∧
              fileHash tools placed = recorded.sha256

end

section

variable {tools : Tools} {known : Set Bytes} {build : BuildManifest}
    {dir middle after : OutputDir}

theorem Spared.refl (dir : OutputDir) : Spared tools known build dir dir :=
  ⟨rfl, rfl, fun _ _ _ => rfl, Or.inl rfl⟩

theorem Spared.trans
    (first : Spared tools known build dir middle)
    (second : Spared tools known build middle after) :
    Spared tools known build dir after where
  present := second.present.trans first.present
  manifest := second.manifest.trans first.manifest
  files := fun name notFirmware notImage =>
    (second.files name notFirmware notImage).trans
      (first.files name notFirmware notImage)
  firmware := by
    rcases second.firmware with same | ⟨absent, placed⟩
    · rw [same]
      exact first.firmware
    · rcases first.firmware with same | ⟨-, _, _, -, present, -⟩
      · exact Or.inr ⟨same.symm.trans absent, placed⟩
      · cases absent.symm.trans present

end

/-! ## The checks -/

section

variable {tools : Tools} {Part : Type} {part : OutputDir → Part}
    {args : IgvmArgs} {world middle : World} {build : BuildManifest}
    {firmwareHash : String}

theorem leaves_checkSealed :
    Leaves (fun world => part world.dir) (checkSealed tools args) := by
  apply leaves_bind leaves_get
  intro world
  apply leaves_bind (leaves_ensure _ _)
  intro _
  apply leaves_bind (leaves_ensure _ _)
  intro _
  apply leaves_bind (leaves_ensure _ _)
  intro _
  apply leaves_bind (leaves_ensure _ _)
  intro _
  apply leaves_bind (leaves_readManifest _)
  intro build
  apply leaves_bind (leaves_readFile _)
  intro sealed
  apply leaves_bind (leaves_ensure _ _)
  intro _
  apply leaves_bind (leaves_readFirmware _)
  intro supplied
  apply leaves_bind (leaves_checkFirmware _ _)
  intro _
  exact leaves_pure _

/-- What the checks have found out. -/
theorem checkSealed_eq_ok
    (ran :
      checkSealed tools args world = .ok (build, firmwareHash) middle) :
    world.dir.manifest = .holds build ∧
      middle.firmwareFile = world.firmwareFile ∧
        (∀ supplied, world.firmwareFile = some supplied →
            firmwareHash = fileHash tools supplied) ∧
          ∀ recorded, build.inputs.firmware = some recorded →
            recorded.sha256 = firmwareHash := by
  rw [checkSealed] at ran
  rcases bind_eq_ok.1 ran with ⟨_, first, got, inDir⟩
  cases got
  rcases bind_eq_ok.1 inDir with ⟨_, second, checked, withFirmware⟩
  rcases ensure_eq_ok.1 checked with ⟨-, rfl⟩
  rcases bind_eq_ok.1 withFirmware with ⟨_, third, checked, withUki⟩
  rcases ensure_eq_ok.1 checked with ⟨-, rfl⟩
  rcases bind_eq_ok.1 withUki with ⟨_, fourth, checked, withManifest⟩
  rcases ensure_eq_ok.1 checked with ⟨-, rfl⟩
  rcases bind_eq_ok.1 withManifest with ⟨_, fifth, checked, reading⟩
  rcases ensure_eq_ok.1 checked with ⟨-, rfl⟩
  rcases bind_eq_ok.1 reading with ⟨found, sixth, read, sealing⟩
  rcases readManifest_eq_ok read with ⟨stored, -, sixthFirmware⟩
  rcases bind_eq_ok.1 sealing with ⟨sealed, seventh, readSealed, comparing⟩
  rcases readFile_eq_ok readSealed with ⟨-, -, seventhFirmware⟩
  rcases bind_eq_ok.1 comparing with ⟨_, eighth, checked, supplying⟩
  rcases ensure_eq_ok.1 checked with ⟨-, rfl⟩
  rcases bind_eq_ok.1 supplying with ⟨supplied, ninth, readSupplied, recording⟩
  rcases readFirmware_eq_ok readSupplied with
    ⟨suppliedFile, -, ninthFirmware⟩
  rcases bind_eq_ok.1 recording with ⟨_, tenth, recorded, returning⟩
  rcases checkFirmware_eq_ok recorded with ⟨same, -, rfl⟩
  rcases pure_eq_ok.1 returning with ⟨returned, rfl⟩
  cases returned
  have sameFirmware := seventhFirmware.trans sixthFirmware
  refine ⟨stored, ninthFirmware.trans sameFirmware, ?_, same⟩
  intro other otherFile
  rw [sameFirmware, otherFile] at suppliedFile
  rw [Option.some.inj suppliedFile]

/-! ## One failed run -/

/-- A write is refused, is cut short, or is done. -/
theorem writeFile_cases (name : String) (bytes : Bytes) (world : World) :
    (worldAfter (writeFile name bytes world)).dir = world.dir ∨
      CutShort world ∨
        world.faults.head? ≠ some (some .refused) ∧
          (worldAfter (writeFile name bytes world)).dir =
            world.dir.setFile name bytes := by
  rcases world with ⟨dir, firmwareFile, _ | ⟨_ | _ | left, rest⟩⟩
  · exact Or.inr (Or.inr ⟨nofun, rfl⟩)
  · exact Or.inr (Or.inr ⟨nofun, rfl⟩)
  · exact Or.inl rfl
  · exact Or.inr (Or.inl ⟨left, rfl⟩)

/-- Placing the firmware changes a directory only where it writes a copy. -/
theorem placeFirmware_cases (args : IgvmArgs) (firmwareHash : String)
    (world : World) :
    (worldAfter (placeFirmware tools args firmwareHash world)).dir =
        world.dir ∨
      world.dir.files "OVMF.fd" = none ∧
        ∃ bytes here,
          readFirmware args.firmware world = .ok bytes here ∧
            here.faults.head? ≠ some (some .refused) ∧
              (CutShort here ∨
                (worldAfter
                    (placeFirmware tools args firmwareHash world)).dir =
                  world.dir.setFile "OVMF.fd" bytes) := by
  cases absent : world.dir.files "OVMF.fd" with
  | some present =>
      have checks :
          placeFirmware tools args firmwareHash world =
            (readFile "OVMF.fd" >>= fun output =>
              ensure (fileHash tools output = firmwareHash)
                "output OVMF.fd differs from the supplied SNP firmware")
              world := by
        rw [placeFirmware]
        change EStateM.bind _ _ world = _
        rw [EStateM.bind, fileExists_eq, absent]
        rfl
      rw [checks]
      have kept :
          Leaves World.dir
            (readFile "OVMF.fd" >>= fun output =>
              ensure (fileHash tools output = firmwareHash)
                "output OVMF.fd differs from the supplied SNP firmware") :=
        leaves_bind (@leaves_readFile _ id _) fun _ => leaves_ensure _ _
      exact Or.inl (kept.part_eq world)
  | none =>
      have copies :
          placeFirmware tools args firmwareHash world =
            (readFirmware args.firmware >>= writeFile "OVMF.fd") world := by
        rw [placeFirmware]
        change EStateM.bind _ _ world = _
        rw [EStateM.bind, fileExists_eq, absent]
        rfl
      rw [copies]
      change
        (worldAfter (EStateM.bind _ _ world)).dir = world.dir ∨ _ ∧
          ∃ bytes here, _ ∧ _ ∧
            (_ ∨ (worldAfter (EStateM.bind _ _ world)).dir = _)
      rw [EStateM.bind]
      have kept := (@leaves_readFirmware _ id args.firmware).part_eq world
      cases read : readFirmware args.firmware world with
      | error problem left =>
          rw [read] at kept
          exact Or.inl kept
      | ok bytes here =>
          rw [read] at kept
          have sameDir : here.dir = world.dir := kept
          rcases writeFile_cases "OVMF.fd" bytes here with
            refused | cut | ⟨allowed, wrote⟩
          · exact Or.inl (refused.trans sameDir)
          · by_cases refused : here.faults.head? = some (some .refused)
            · rcases cut with ⟨left, torn⟩
              cases refused.symm.trans torn
            · exact Or.inr ⟨rfl, bytes, here, rfl, refused, Or.inl cut⟩
          · rw [sameDir] at wrote
            exact Or.inr ⟨rfl, bytes, here, rfl, allowed, Or.inr wrote⟩

/-- A part that neither the firmware nor an image belongs to stays. -/
theorem part_of_run
    (firmwareKept :
      ∀ dir bytes,
        part (OutputDir.setFile dir "OVMF.fd" bytes) = part dir)
    (imagesKept :
      ∀ smp dir bytes,
        part (OutputDir.setFile dir (igvmName smp) bytes) = part dir)
    (manifestKept :
      ∀ dir manifest, part (OutputDir.setManifest dir manifest) = part dir)
    (args : IgvmArgs) (world : World) :
    part (worldAfter (run tools args world)).dir = part world.dir := by
  have kept :
      Leaves (fun world => part world.dir) (run tools args) :=
    leaves_bind (leaves_deriveVariants tools imagesKept firmwareKept args)
      fun build => leaves_writeManifest manifestKept (finishManifest build)
  exact kept.part_eq world

/-- The firmware stays as placing it has left it. -/
theorem firmware_of_run
    (args : IgvmArgs) (world : World) :
    (worldAfter (run tools args world)).dir.files "OVMF.fd" =
        world.dir.files "OVMF.fd" ∨
      ∃ build firmwareHash middle,
        checkSealed tools args world = .ok (build, firmwareHash) middle ∧
          middle.dir = world.dir ∧
            (worldAfter (run tools args world)).dir.files "OVMF.fd" =
              (worldAfter
                (placeFirmware tools args firmwareHash middle)).dir.files
                  "OVMF.fd" := by
  have behind (build : BuildManifest) (firmwareHash : String) :
      Leaves (fun world => world.dir.files "OVMF.fd")
        (deriveSealed tools args build firmwareHash >>= fun build =>
          writeManifest (finishManifest build)) := by
    have imagesKept :
        ∀ smp dir bytes,
          (OutputDir.setFile dir (igvmName smp) bytes).files "OVMF.fd" =
            dir.files "OVMF.fd" := fun smp dir bytes =>
      dir.setFile_files_of_ne bytes (igvmName_ne smp (by decide))
    apply leaves_bind
    · apply leaves_bind (@leaves_readFile _ (·.files "OVMF.fd") _)
      intro firmware
      apply leaves_bind (@leaves_readFile _ (·.files "OVMF.fd") _)
      intro uki
      exact
        leaves_foldlM
          (@leaves_deriveVariant tools _ (·.files "OVMF.fd") imagesKept
            firmware uki) _ _
    · intro build
      exact
        @leaves_writeManifest _ (·.files "OVMF.fd") (fun _ _ => rfl) _
  have sequence :
      run tools args =
        checkSealed tools args >>= fun opened =>
          placeFirmware tools args opened.2 >>= fun _ =>
            deriveSealed tools args opened.1 opened.2 >>= fun build =>
              writeManifest (finishManifest build) := by
    rw [run, deriveVariants_eq]
    simp only [bind_assoc]
  have checks :=
    (@leaves_checkSealed tools _ id args).part_eq world
  rw [sequence]
  refine
    @worldAfter_bind _ _ _ _ _ _ world
      (fun after =>
        after.dir.files "OVMF.fd" = world.dir.files "OVMF.fd" ∨
          ∃ build firmwareHash middle,
            checkSealed tools args world =
                .ok (build, firmwareHash) middle ∧
              middle.dir = world.dir ∧
                after.dir.files "OVMF.fd" =
                  (worldAfter
                    (placeFirmware tools args firmwareHash middle)).dir.files
                      "OVMF.fd") ?_ ?_
  · intro problem left failed
    rw [failed] at checks
    have kept : left.dir = world.dir := checks
    exact Or.inl (by rw [kept])
  · rintro ⟨build, firmwareHash⟩ middle checked
    rw [checked] at checks
    refine Or.inr ⟨build, firmwareHash, middle, checked, checks, ?_⟩
    refine
      @worldAfter_bind _ _ _ _ _ _ middle
        (fun after =>
          after.dir.files "OVMF.fd" =
            (worldAfter
              (placeFirmware tools args firmwareHash middle)).dir.files
                "OVMF.fd") ?_ ?_
    · intro problem left failed
      rw [failed]
      rfl
    · intro value next placed
      rw [placed]
      exact (behind build firmwareHash).part_eq next

theorem manifest_of_careful
    {problem : String} {after : World} (careful : Careful tools args world)
    (failed : run tools args world = .error problem after) :
    after.dir.manifest = world.dir.manifest := by
  have derives := (leaves_manifest_deriveVariants tools args).part_eq world
  have sequence :
      run tools args world =
        EStateM.bind (deriveVariants tools args)
          (fun build => writeManifest (finishManifest build)) world :=
    rfl
  rw [sequence, EStateM.bind] at failed
  cases ran : deriveVariants tools args world with
  | error problem left =>
      rw [ran] at failed derives
      cases failed
      exact derives
  | ok build here =>
      rw [ran] at failed derives
      have whole := careful.manifest build here ran
      rw [← show here.dir.manifest = world.dir.manifest from derives]
      rcases here with ⟨dir, firmwareFile, _ | ⟨_ | _ | left, rest⟩⟩
      · cases failed
      · cases failed
      · cases failed
        rfl
      · exact absurd ⟨left, rfl⟩ whole

/-- A careful run that fails spares the directory. -/
theorem spared_of_failed
    {known : Set Bytes} {problem : String} {after : World}
    (stored : world.dir.manifest = .holds build)
    (firmwareKnown :
      ∀ bytes, world.firmwareFile = some bytes → bytes ∈ known)
    (careful : Careful tools args world)
    (failed : run tools args world = .error problem after) :
    Spared tools known build world.dir after.dir := by
  have final : after = worldAfter (run tools args world) := by
    rw [failed]
    rfl
  constructor
  · rw [final]
    exact
      @part_of_run tools _ OutputDir.present (fun _ _ => rfl)
        (fun _ _ _ => rfl) (fun _ _ => rfl) args world
  · exact manifest_of_careful careful failed
  · intro name notFirmware notImage
    rw [final]
    exact
      @part_of_run tools _ (·.files name)
        (fun dir bytes => dir.setFile_files_of_ne bytes notFirmware)
        (fun smp dir bytes => dir.setFile_files_of_ne bytes (notImage smp))
        (fun _ _ => rfl) args world
  · rw [final]
    rcases @firmware_of_run tools args world with
      same | ⟨found, firmwareHash, middle, checked, sameDir, left⟩
    · exact Or.inl same
    rw [left]
    rcases checkSealed_eq_ok checked with
      ⟨foundStored, sameFirmware, hashed, recorded⟩
    cases stored.symm.trans foundStored
    rcases @placeFirmware_cases tools args firmwareHash middle with
      kept | ⟨absent, bytes, here, read, allowed, written⟩
    · exact Or.inl (by rw [kept, sameDir])
    rw [sameDir] at absent written
    have supplied : world.firmwareFile = some bytes :=
      sameFirmware.symm.trans (readFirmware_eq_ok read).1
    rcases careful.copy build here
        ⟨firmwareHash, middle, bytes, checked, sameDir ▸ absent, read⟩ with
      refused | ⟨isRecorded, whole⟩
    · exact absurd refused allowed
    rcases written with cut | wrote
    · exact absurd cut whole
    cases entry : build.inputs.firmware with
    | none => exact absurd entry isRecorded
    | some found =>
        refine
          Or.inr
            ⟨absent, found, bytes, rfl, ?_, firmwareKnown bytes supplied, ?_⟩
        · rw [wrote]
          exact world.dir.setFile_files_self "OVMF.fd" bytes
        · rw [← hashed bytes supplied]
          exact (recorded found entry).symm

end

/-! ## The run after them -/

/-- A directory that a build and the runs after it leave. -/
structure Sealed
    (tools : Tools) (known : Set Bytes) (dir : OutputDir)
    (build : BuildManifest) : Prop where
  stored : dir.manifest = .holds build
  provenance : HasProvenance tools known build
  uki : ∀ bytes, dir.files "uki.efi" = some bytes → bytes ∈ known
  firmware : ∀ bytes, dir.files "OVMF.fd" = some bytes → bytes ∈ known

section

variable {tools : Tools} {known : Set Bytes} {dir last : OutputDir}
    {build : BuildManifest} {supplied firmware uki : Bytes}
    {world after middle : World} {firmwareFile : Option Bytes}

/-- A cell is derived where its image can be built, whatever its file holds. -/
theorem deriveCell_eq_ok
    {smp : UInt32} {entry : Option SnpVariant} {cell : VariantCell}
    (recorded :
      ∀ variant, entry = some variant →
        variant.smp = smp ∧ BuiltFrom tools firmware uki variant)
    {file : Option Bytes}
    (derived : deriveCell tools firmware uki smp (entry, file) = .ok cell)
    (other : Option Bytes) :
    ∃ otherCell,
      deriveCell tools firmware uki smp (entry, other) = .ok otherCell ∧
        otherCell.1 = cell.1 := by
  have built :
      ∃ result, smp ≠ 0 ∧ buildSnp tools firmware uki smp = .ok result ∧
        cell.1 =
          some (snpVariant smp result (fileHash tools result.igvmBytes)) ∧
          (entry ≠ none → entry = cell.1) := by
    rw [deriveCell] at derived
    split at derived
    · cases derived
    rename_i positive
    cases entry with
    | none =>
        cases result : buildSnp tools firmware uki smp with
        | error problem =>
            rw [result] at derived
            cases derived
        | ok built =>
            rw [result] at derived
            cases derived
            exact ⟨built, positive, rfl, rfl, fun absent => absurd rfl absent⟩
    | some variant =>
        rcases recorded variant rfl with ⟨rfl, result, built, same⟩
        refine ⟨result, positive, built, ?_, fun _ => ?_⟩
        · rw [built] at derived
          split at derived
          · cases derived
            exact congrArg some same
          · cases derived
            rfl
        · rw [built] at derived
          split at derived
          · cases derived
            rfl
          · cases derived
            exact congrArg some same
  rcases built with ⟨result, positive, built, first, kept⟩
  rw [deriveCell, if_neg positive]
  split
  · rename_i unchanged
    refine ⟨_, rfl, kept ?_⟩
    rintro rfl
    cases unchanged
  · rw [built]
    exact ⟨_, rfl, first.symm⟩

/-- A spared directory is opened like the one before. -/
theorem Opened.of_spared
    (noCollision : Set.InjOn tools.sha256 known)
    (spared : Spared tools known build dir last)
    (suppliedKnown : supplied ∈ known)
    (opened :
      Opened tools { dir, firmwareFile } build supplied firmware uki
        middle) :
    ∃ middle',
      Opened tools { dir := last, firmwareFile } build supplied firmware uki
        middle' := by
  have placed :
      ∃ middle' : World,
        last.files "OVMF.fd" = some firmware ∧
              fileHash tools firmware = fileHash tools supplied ∧
            { dir := last, firmwareFile } = middle' ∨
          last.files "OVMF.fd" = none ∧ firmware = supplied ∧
            World.setFile { dir := last, firmwareFile } "OVMF.fd" supplied =
              middle' := by
    rcases spared.firmware with same | ⟨absent, found, copy, entry, present,
      copyKnown, hashed⟩
    · rw [same]
      rcases opened.placed with ⟨present, hashed, -⟩ | ⟨absent, same, -⟩
      · exact ⟨_, Or.inl ⟨present, hashed, rfl⟩⟩
      · exact ⟨_, Or.inr ⟨absent, same, rfl⟩⟩
    · rcases opened.placed with ⟨other, -⟩ | ⟨-, rfl, -⟩
      · cases absent.symm.trans other
      · have same : copy = firmware :=
          eq_of_hexHash_eq noCollision copyKnown suppliedKnown
            (hashed.trans (opened.recorded found entry))
        rw [same] at present
        exact ⟨_, Or.inl ⟨present, rfl, rfl⟩⟩
  rcases placed with ⟨middle', placed⟩
  refine ⟨middle', ?_⟩
  constructor
  · exact spared.present.trans opened.present
  · exact spared.manifest.trans opened.stored
  · exact opened.version
  · exact opened.firmwareFile
  · exact
      (spared.files "uki.efi" (by decide)
        fun smp => igvmName_ne smp (by decide)).trans opened.ukiFile
  · exact opened.uki_sealed
  · exact opened.recorded
  · exact opened.unrecorded
  · exact placed

/-- A sealed entry is what this firmware and UKI give. -/
theorem Sealed.builtFrom
    (isSealed : Sealed tools known dir build)
    (suppliedKnown : supplied ∈ known)
    (opened :
      Opened tools { dir, firmwareFile } build supplied firmware uki middle)
    {variant : SnpVariant} (member : variant ∈ build.snpVariants) :
    BuiltFrom tools firmware uki variant := by
  rcases isSealed.provenance.firmware (List.ne_nil_of_mem member) with
    ⟨recorded, entry, -⟩
  have firmwareKnown : firmware ∈ known := by
    rcases opened.placed with ⟨present, -⟩ | ⟨-, rfl, -⟩
    · exact isSealed.firmware firmware present
    · exact suppliedKnown
  have hashed : fileHash tools firmware = fileHash tools supplied := by
    rcases opened.placed with ⟨-, same, -⟩ | ⟨-, rfl, -⟩
    · exact same
    · rfl
  exact
    isSealed.provenance.built recorded entry firmware firmwareKnown
      (hashed.trans (opened.recorded recorded entry).symm) uki
      (isSealed.uki uki opened.ukiFile) opened.uki_sealed variant member

/-- A run on a spared directory ends with the manifest it would have ended with. -/
theorem run_of_spared
    (noCollision : Set.InjOn tools.sha256 known)
    (isSealed : Sealed tools known dir build)
    (spared : Spared tools known build dir last)
    (firmwareKnown : ∀ bytes, firmwareFile = some bytes → bytes ∈ known)
    {args : IgvmArgs}
    (ran : run tools args { dir, firmwareFile } = .ok () after) :
    ∃ after',
      run tools args { dir := last, firmwareFile } = .ok () after' ∧
        after'.dir.manifest = after.dir.manifest := by
  rcases (run_undisturbed rfl).1 ran with
    ⟨opens, supplied, firmware, uki, middle, finish, final, opened, looped,
      rfl⟩
  cases isSealed.stored.symm.trans opened.stored
  have suppliedKnown := firmwareKnown supplied opened.firmwareFile
  rcases Opened.of_spared noCollision spared suppliedKnown opened with
    ⟨middle', reopened⟩
  have nodup := isSealed.provenance.distinct
  have idempotent := deriveCell_idempotent tools firmware uki
  rcases cells_of_loop tools firmware uki opened.faults looped with
    ⟨cells, frame⟩
  rcases (foldlM_updateAt_eq_ok idempotent).1 cells with
    ⟨changed, unchanged⟩
  have again :
      ∀ smp ∈ args.smp, ∃ cell,
        deriveCell tools firmware uki smp
            (cellsOf (recordFirmware tools build supplied) middle' smp) =
            .ok cell ∧
          cell.1 = (cellsOf finish final smp).1 := by
    intro smp member
    apply deriveCell_eq_ok _ (changed smp member)
    intro variant found
    rcases (find?_eq_some_iff_mem nodup).1 found with ⟨inside, same⟩
    exact ⟨same, isSealed.builtFrom suppliedKnown opened inside⟩
  rcases exists_foldlM_updateAt idempotent fun smp member =>
      (again smp member).imp fun _ derived => derived.1 with
    ⟨cells', looped'⟩
  rcases (foldlM_updateAt_eq_ok idempotent).1 looped' with
    ⟨changed', unchanged'⟩
  rcases reopened.run_of_cells rfl args nodup looped' with
    ⟨finish', final', ran', sameCells, frame', nodup'⟩
  have entries (smp : UInt32) :
      (cellsOf finish' final' smp).1 = (cellsOf finish final smp).1 := by
    rw [sameCells]
    by_cases member : smp ∈ args.smp
    · rcases again smp member with ⟨cell, derived, first⟩
      cases derived.symm.trans (changed' smp member)
      exact first
    · rw [unchanged' smp member, unchanged smp member]
      rfl
  refine ⟨written finish' final', ran', ?_⟩
  exact
    congrArg ManifestFile.holds
      (finishManifest_eq (frame'.untagged_eq.trans frame.untagged_eq.symm)
        entries ((derives_of_foldlM tools looped).nodup nodup) nodup')

/-- The runs of a sequence that fail are careful. -/
def AllCareful (tools : Tools) (dir : OutputDir) (attempts : List Attempt) :
    Prop :=
  ∀ before attempt later here,
    attempts = before ++ attempt :: later →
      Machines.run (failedRun tools) dir before = some here →
        Careful tools attempt.args (attempt.world here)

theorem AllCareful.of_concat
    {attempts : List Attempt} {attempt : Attempt}
    (careful : AllCareful tools dir (attempts ++ [attempt])) :
    AllCareful tools dir attempts := by
  intro before action later here same ran
  apply careful before action (later ++ [attempt]) here _ ran
  rw [same, List.append_assoc, List.cons_append]

theorem spared_of_failedRuns
    (isSealed : Sealed tools known dir build) {attempts : List Attempt}
    (firmwareKnown :
      ∀ attempt ∈ attempts, ∀ bytes,
        attempt.firmwareFile = some bytes → bytes ∈ known)
    (failed : Machines.run (failedRun tools) dir attempts = some last)
    (careful : AllCareful tools dir attempts) :
    Spared tools known build dir last := by
  refine
    Machines.run_history_invariant
      (fun taken here =>
        (∀ attempt ∈ taken, ∀ bytes,
            attempt.firmwareFile = some bytes → bytes ∈ known) →
          AllCareful tools dir taken → Spared tools known build dir here)
      (fun _ _ => Spared.refl dir) ?_ failed firmwareKnown careful
  intro taken attempt before after took spared stepped allKnown allCareful
  have earlier :=
    spared
      (fun other member => allKnown other (List.mem_append_left _ member))
      allCareful.of_concat
  refine earlier.trans ?_
  rw [failedRun] at stepped
  cases ran : run tools attempt.args (attempt.world before) with
  | ok _ _ =>
      rw [ran] at stepped
      cases stepped
  | error problem left =>
      rw [ran] at stepped
      cases stepped
      exact
        spared_of_failed (earlier.manifest.trans isSealed.stored)
          (allKnown attempt (by simp)) (allCareful taken attempt [] before rfl took) ran

/--
After failed runs of the kind that spares a sealed directory its manifest is
what it was, and a run that would have succeeded on the directory as it was
still does and ends with the same manifest.
-/
theorem failed_runs_harmless
    (tools : Tools) {known : Set Bytes} {dir last : OutputDir}
    {build : BuildManifest} {attempts : List Attempt}
    (noCollision : Set.InjOn tools.sha256 known)
    (isSealed : Sealed tools known dir build)
    (firmwareKnown :
      ∀ attempt ∈ attempts, ∀ bytes,
        attempt.firmwareFile = some bytes → bytes ∈ known)
    (failed : Machines.run (failedRun tools) dir attempts = some last)
    (careful : AllCareful tools dir attempts) :
    last.manifest = dir.manifest ∧
      ∀ args firmwareFile after,
        (∀ bytes, firmwareFile = some bytes → bytes ∈ known) →
          run tools args { dir, firmwareFile } = .ok () after →
            ∃ after',
              run tools args { dir := last, firmwareFile } = .ok () after' ∧
                after'.dir.manifest = after.dir.manifest := by
  have spared := spared_of_failedRuns isSealed firmwareKnown failed careful
  refine ⟨spared.manifest, ?_⟩
  intro args firmwareFile after laterKnown ran
  exact run_of_spared noCollision isSealed spared laterKnown ran

end

/-! ## A firmware that is placed but not recorded -/

def sampleFirmware : Bytes :=
  Igvm.Ovmf.hobFirmware 0x810000

/-- The UKI, the firmware, and another file that is none. -/
def sampleFiles : List Bytes :=
  [[1], sampleFirmware, [7]]

theorem noCollision_sampleFiles :
    Set.InjOn sampleTools.sha256 {bytes | bytes ∈ sampleFiles} := by
  have distinct :
      ∀ left ∈ sampleFiles, ∀ right ∈ sampleFiles,
        sampleTools.sha256 left = sampleTools.sha256 right →
          left = right := by
    decide +kernel
  exact fun left member right other same =>
    distinct left member right other same

/-- The runs with the counts of a sealed directory. -/
def countsFrom (first : UInt32) (rest : List UInt32) : IgvmArgs where
  dir := "out"
  smp := first :: rest
  firmware := "OVMF.fd"
  smp_nonempty := List.cons_ne_nil _ _

/-- A directory without images, whose manifest records no firmware. -/
def sealedDir (firmware : Option Bytes) : OutputDir where
  manifest := .holds sealedManifest
  files := fun name =>
    if name = "uki.efi" then some [1]
    else if name = "OVMF.fd" then firmware
    else none

theorem sealed_sealedDir
    {firmware : Option Bytes}
    (firmwareKnown : ∀ bytes, firmware = some bytes → bytes ∈ sampleFiles) :
    Sealed sampleTools {bytes | bytes ∈ sampleFiles} (sealedDir firmware)
      sealedManifest where
  stored := rfl
  provenance :=
    { distinct := List.nodup_nil
      uki := ⟨[1], List.mem_cons_self, rfl⟩
      firmware := fun entries => absurd rfl entries
      built := by
        intro recorded absent
        cases absent }
  uki := fun bytes found => by
    cases found
    exact List.mem_cons_self
  firmware := firmwareKnown

/-- The run with another file as the firmware ends at the vCPU count zero. -/
def otherFirmware : Attempt where
  args := countsFrom 0 []
  firmwareFile := some [7]
  faults := []

theorem failed_run_places_firmware :
    ∃ last,
      Sealed sampleTools {bytes | bytes ∈ sampleFiles} (sealedDir none)
          sealedManifest ∧
        Machines.run (failedRun sampleTools) (sealedDir none)
            [otherFirmware] = some last ∧
          (∃ after,
            run sampleTools (countsFrom 1 [])
                { dir := sealedDir none
                  firmwareFile := some sampleFirmware } = .ok () after) ∧
            ¬ ∃ after,
              run sampleTools (countsFrom 1 [])
                  { dir := last, firmwareFile := some sampleFirmware } =
                .ok () after := by
  have fails :
      ((failedRun sampleTools (sealedDir none) otherFirmware).any
        fun last =>
          !succeeds
            (run sampleTools (countsFrom 1 [])
              { dir := last, firmwareFile := some sampleFirmware })) =
        true := by
    decide +kernel
  rcases (Option.any_eq_true_iff_get _ _).1 fails with ⟨isSome, refused⟩
  have would :
      succeeds
          (run sampleTools (countsFrom 1 [])
            { dir := sealedDir none
              firmwareFile := some sampleFirmware }) = true := by
    decide +kernel
  rcases exists_eq_ok_of_succeeds would with ⟨_, after, ran⟩
  refine
    ⟨(failedRun sampleTools (sealedDir none) otherFirmware).get isSome,
      sealed_sealedDir nofun, ?_, ⟨after, ran⟩, ?_⟩
  · rw [← List.nil_append [otherFirmware], Machines.run_concat_eq_some]
    exact ⟨sealedDir none, rfl, (Option.some_get isSome).symm⟩
  · rintro ⟨later, ran⟩
    rw [ran] at refused
    cases refused

/-- The run with the firmware of the directory builds an image before it ends. -/
def sameFirmware : Attempt where
  args := countsFrom 1 [0]
  firmwareFile := some sampleFirmware
  faults := []

theorem allCareful_sameFirmware :
    AllCareful sampleTools (sealedDir (some sampleFirmware))
      [sameFirmware] := by
  intro before attempt later here same ran
  cases before with
  | cons first rest =>
      rw [List.cons_append] at same
      have rest := (List.cons.inj same).2
      exact absurd rest.symm (List.append_ne_nil_of_right_ne_nil _ (by simp))
  | nil =>
      cases same
      cases ran
      constructor
      · rintro build there ⟨firmwareHash, middle, bytes, checked, absent, -⟩
        have kept :=
          (@leaves_checkSealed sampleTools _ id
            sameFirmware.args).part_eq
              (sameFirmware.world (sealedDir (some sampleFirmware)))
        rw [checked] at kept
        have sameDir : middle.dir = sealedDir (some sampleFirmware) := kept
        rw [sameDir] at absent
        cases absent
      · intro build there derived
        have fails :
            succeeds
                (deriveVariants sampleTools sameFirmware.args
                  (sameFirmware.world (sealedDir (some sampleFirmware)))) =
              false := by
          decide +kernel
        rw [derived] at fails
        cases fails

theorem failed_runs_harmless_sameFirmware :
    ∃ last after,
      Machines.run (failedRun sampleTools) (sealedDir (some sampleFirmware))
          [sameFirmware] = some last ∧
        last.manifest = .holds sealedManifest ∧
          run sampleTools (countsFrom 1 [])
              { dir := last, firmwareFile := some sampleFirmware } =
            .ok () after := by
  have fails :
      (failedRun sampleTools (sealedDir (some sampleFirmware))
        sameFirmware).isSome = true := by
    decide +kernel
  have would :
      succeeds
          (run sampleTools (countsFrom 1 [])
            { dir := sealedDir (some sampleFirmware)
              firmwareFile := some sampleFirmware }) = true := by
    decide +kernel
  rcases Option.isSome_iff_exists.1 fails with ⟨last, failed⟩
  rcases exists_eq_ok_of_succeeds would with ⟨_, after, ran⟩
  have firmwareKnown :
      ∀ bytes, some sampleFirmware = some bytes → bytes ∈ sampleFiles := by
    rintro _ ⟨⟩
    exact List.mem_cons_of_mem _ List.mem_cons_self
  have failedAll :
      Machines.run (failedRun sampleTools) (sealedDir (some sampleFirmware))
        [sameFirmware] = some last := by
    rw [← List.nil_append [sameFirmware], Machines.run_concat_eq_some]
    exact ⟨_, rfl, failed⟩
  have harmless :=
    failed_runs_harmless sampleTools noCollision_sampleFiles
      (sealed_sealedDir firmwareKnown)
      (List.forall_mem_singleton.2 firmwareKnown) failedAll
      allCareful_sameFirmware
  rcases harmless.2 (countsFrom 1 []) (some sampleFirmware) after
      firmwareKnown ran with
    ⟨after', ran', -⟩
  exact ⟨last, after', failedAll, harmless.1, ran'⟩

end Confos.Image.FailedRuns
