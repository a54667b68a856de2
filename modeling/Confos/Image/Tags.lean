import Confos.Image.BuildCommand
import Confos.Image.Derivation
import Confos.Library.Machines

/-!
# Which manifests can be run

`confos build` and `confos igvm` write the manifest, `confos run` checks it.
The platform tag and the vCPU counts of a manifest follow from the arguments
of the commands that wrote it, so these decide whether it can be run.
-/

namespace Confos.Image.Tags

open Confos.Library.ByteStrings
open Confos.Library.Fallible
open Confos.Library.Effects
open Confos.Library.Machines
open Confos.Image.Manifest
open Confos.Image.Files
open Confos.Image.RunCommand
open Confos.Image.BuildCommand
open Confos.Image.IgvmCommand (IgvmArgs finishManifest)
open Confos.Image.Derivation

/-- The tag of the measurement blocks a manifest holds. -/
def documentedTag (manifest : BuildManifest) : Option String :=
  match manifest.snpVariants.isEmpty, manifest.tdx.isSome with
  | false, false => some "snp"
  | true, true => some "tdx"
  | false, true => some "multi"
  | true, false => none

/-- `confos run` takes the manifest, and its tag names its blocks. -/
def Runnable (manifest : BuildManifest) : Prop :=
  validateManifestFields manifest = .ok () ∧
    documentedTag manifest = some manifest.build.platform

/-! ## What the arguments ask for -/

def wantsSnp (args : BuildArgs) : Bool :=
  !args.skipIgvm && args.platform.needsSnp

def wantsTdx (args : BuildArgs) : Bool :=
  args.skipIgvm || args.platform.needsTdx

theorem wants_of_resolvePlatform
    {args : BuildArgs} {platform : BuildPlatform}
    (resolved : resolvePlatform args = .ok platform) :
    platform.needsSnp = wantsSnp args ∧ platform.needsTdx = wantsTdx args := by
  rcases args with ⟨_ | _ | _, _ | _⟩
  all_goals
    first
    | cases resolved; exact ⟨rfl, rfl⟩
    | cases resolved

/-- The runs of the command among some actions. -/
def igvmRuns (actions : List Action) : List IgvmArgs :=
  actions.filterMap fun
    | .igvm args _ _ => some args
    | .edit _ _ => none

/-- The vCPU counts some commands have asked for. -/
def AskedFor (args : BuildArgs) (actions : List Action) (smp : UInt32) : Prop :=
  wantsSnp args = true ∧ smp ∈ args.smp ∨
    ∃ igvm ∈ igvmRuns actions, smp ∈ igvm.smp

/-- No IGVM image was derived for a TDX build, and no count is too large. -/
def StaysRunnable (args : BuildArgs) (actions : List Action) : Prop :=
  (wantsTdx args = true → igvmRuns actions = []) ∧
    ∀ smp, AskedFor args actions smp → smp ≤ 1024

/-- The tag the last writer of the manifest gave it. -/
def lastTag (args : BuildArgs) (actions : List Action) : String :=
  if igvmRuns actions = [] then
    match wantsSnp args, wantsTdx args with
    | true, false => "snp"
    | true, true => "multi"
    | false, _ => "tdx"
  else if wantsTdx args then
    "both"
  else
    "snp"

/-- What the arguments of the commands so far say about the manifest. -/
structure Written
    (args : BuildArgs) (actions : List Action) (manifest : BuildManifest) :
    Prop where
  format : manifest.build.format = "raw"
  memory : isMemorySize manifest.build.memory = true
  tdx : manifest.tdx.isSome = wantsTdx args
  platform : manifest.build.platform = lastTag args actions
  counts :
    ∀ smp, smp ∈ manifest.snpVariants.map (·.smp) ↔ AskedFor args actions smp
  positive : ∀ variant ∈ manifest.snpVariants, variant.smp ≠ 0

section

variable {tools : Tools}

/-! ## The manifest of a build -/

theorem counts_of_built
    {firmware uki : Bytes} {smps : List UInt32}
    {variants : List (Bytes × SnpVariant)}
    (built :
      List.Forall₂
        (fun smp built => buildVariant tools firmware uki smp = .ok built)
        smps variants) :
    (variants.map (·.2)).map (·.smp) = smps ∧ ∀ smp ∈ smps, smp ≠ 0 := by
  induction built with
  | nil => exact ⟨rfl, nofun⟩
  | cons first rest induction =>
      rcases buildVariant_eq_ok tools first with ⟨positive, result, -, rfl⟩
      constructor
      · rw [List.map_cons, List.map_cons, induction.1]
        rfl
      · exact List.forall_mem_cons.2 ⟨positive, induction.2⟩

theorem counts_of_buildVariants
    {snpFirmware : Option Bytes} {uki : Bytes} {smps : List UInt32}
    {variants : List (Bytes × SnpVariant)}
    (ran : buildVariants tools snpFirmware uki smps = .ok variants) :
    (variants.map (·.2)).map (·.smp) =
        (if snpFirmware.isSome then sortedSmps smps else []) ∧
      (∀ smp ∈ (variants.map (·.2)).map (·.smp), smp ≠ 0) ∧
        (snpFirmware.isSome = true → smps ≠ []) := by
  cases snpFirmware with
  | none =>
      cases ran
      exact ⟨rfl, nofun, nofun⟩
  | some firmware =>
      rcases buildVariants_eq_ok tools ran with ⟨nonempty, built⟩
      rcases counts_of_built built with ⟨counts, positive⟩
      rw [counts]
      refine ⟨rfl, positive, ?_⟩
      rintro - rfl
      exact nonempty rfl

theorem isSome_measureTdx
    {tdxFirmware : Option Bytes} {uki disk : Bytes}
    {tdx : Option TdxMeasurement}
    (ran : measureTdx tools tdxFirmware uki disk = .ok tdx) :
    tdx.isSome = tdxFirmware.isSome := by
  cases tdxFirmware with
  | none =>
      cases ran
      rfl
  | some firmware =>
      rw [measureTdx] at ran
      cases measured : tools.measureUki firmware uki disk with
      | error problem =>
          rw [measured] at ran
          cases ran
      | ok registers =>
          rw [measured] at ran
          cases ran
          rfl

theorem tag_eq_lastTag
    {args : BuildArgs} {platform : BuildPlatform}
    (resolved : resolvePlatform args = .ok platform) :
    platform.tag = lastTag args [] := by
  rcases args with ⟨_ | _ | _, _ | _⟩
  all_goals
    first
    | cases resolved; rfl
    | cases resolved

/-- A build writes what its arguments ask for. -/
theorem written_of_build
    {args : BuildArgs} {products : BuildProducts} {dir : OutputDir}
    (built : BuildCommand.run tools args products = .ok dir) :
    ∃ manifest,
      dir.manifest = .holds manifest ∧ Written args [] manifest ∧
        (wantsSnp args = true → args.smp ≠ []) := by
  rcases bind_eq_ok.1 built with ⟨platform, resolved, built⟩
  rcases wants_of_resolvePlatform resolved with ⟨needsSnp, needsTdx⟩
  rcases bind_eq_ok.1 built with ⟨snpFirmware, snpRequired, built⟩
  have someSnp := (requireFirmware_eq_ok snpRequired).2
  rcases bind_eq_ok.1 built with ⟨tdxFirmware, tdxRequired, built⟩
  have someTdx := (requireFirmware_eq_ok tdxRequired).2
  rcases bind_eq_ok.1 built with ⟨_, memory, built⟩
  rcases bind_eq_ok.1 built with ⟨variants, snpBuilt, built⟩
  rcases counts_of_buildVariants snpBuilt with ⟨counts, positive, asked⟩
  rcases bind_eq_ok.1 built with ⟨tdx, measured, built⟩
  cases built
  rw [someSnp, needsSnp] at counts asked
  refine ⟨_, rfl, ?_, asked⟩
  constructor
  · rfl
  · exact validateMemory_eq_ok_iff.1 memory
  · exact (isSome_measureTdx measured).trans (someTdx.trans needsTdx)
  · exact tag_eq_lastTag resolved
  · intro smp
    show smp ∈ (variants.map (·.2)).map (·.smp) ↔ _
    rw [counts, AskedFor]
    cases wanted : wantsSnp args with
    | false => simp [igvmRuns]
    | true => simp [igvmRuns, mem_sortedSmps]
  · intro variant member
    exact positive variant.smp (List.mem_map.2 ⟨variant, member, rfl⟩)

/-! ## The manifest of a further run -/

theorem igvmRuns_append (first second : List Action) :
    igvmRuns (first ++ second) = igvmRuns first ++ igvmRuns second :=
  List.filterMap_append ..

/-- A successful run adds its counts and writes its own tag. -/
theorem Written.igvm
    {args : BuildArgs} {actions : List Action} {manifest : BuildManifest}
    (written : Written args actions manifest)
    {dir : OutputDir} (stored : dir.manifest = .holds manifest)
    {igvm : IgvmArgs} {firmwareFile : Option Bytes}
    {faults : List (Option Fault)} {after : World}
    (ran : runIn tools dir igvm firmwareFile faults = .ok () after) :
    ∃ next,
      after.dir.manifest = .holds next ∧
        Written args (actions ++ [.igvm igvm firmwareFile faults]) next := by
  rcases run_eq_ok tools ran with
    ⟨build, supplied, firmware, uki, finish, found, -, derives, final⟩
  rw [stored] at found
  cases found
  have unchanged := derives.others
  have sameBuild : finish.build = manifest.build := by
    rw [← unchanged]
    rfl
  have sameTdx : finish.tdx = manifest.tdx := by
    rw [← unchanged]
    rfl
  have runs :
      igvmRuns (actions ++ [.igvm igvm firmwareFile faults]) =
        igvmRuns actions ++ [igvm] :=
    igvmRuns_append ..
  have someRun : igvmRuns actions ++ [igvm] ≠ [] :=
    List.append_ne_nil_of_right_ne_nil _ (List.cons_ne_nil _ _)
  have newCounts :
      ∀ smp, smp ∈ finish.snpVariants.map (·.smp) ↔
        AskedFor args (actions ++ [.igvm igvm firmwareFile faults]) smp := by
    intro smp
    rw [derives.counts]
    show smp ∈ manifest.snpVariants.map (·.smp) ∨ _ ↔ _
    rw [written.counts, AskedFor, AskedFor, runs, or_assoc]
    simp only [List.mem_append, List.mem_singleton, or_and_right,
      exists_or, exists_eq_left]
  have sorted :
      ∀ variant,
        variant ∈ (finishManifest finish).snpVariants ↔
          variant ∈ finish.snpVariants := by
    intro variant
    exact List.mem_insertionSort _
  refine ⟨finishManifest finish, final, ?_⟩
  constructor
  · exact (congrArg (·.format) sameBuild).trans written.format
  · show isMemorySize finish.build.memory = true
    rw [sameBuild]
    exact written.memory
  · show finish.tdx.isSome = _
    rw [sameTdx]
    exact written.tdx
  · show (if finish.tdx.isSome then "both" else "snp") = _
    rw [lastTag, runs, if_neg someRun, sameTdx, written.tdx]
  · intro smp
    rw [← newCounts, List.mem_map, List.mem_map]
    simp only [sorted]
  · intro variant member
    have asked :=
      (derives.counts variant.smp).1
        (List.mem_map.2 ⟨variant, (sorted variant).1 member, rfl⟩)
    rcases asked with old | new
    · rcases List.mem_map.1 old with ⟨earlier, inManifest, same⟩
      rw [← same]
      exact written.positive earlier inManifest
    · exact derives.positive _ new

/-- After every run of successful commands the manifest is as they asked. -/
theorem written_of_run
    {args : BuildArgs} {products : BuildProducts} {dir after : OutputDir}
    {actions : List Action}
    (built : BuildCommand.run tools args products = .ok dir)
    (ran : Library.Machines.run (successStep tools) dir actions = some after) :
    ∃ manifest,
      after.manifest = .holds manifest ∧ Written args actions manifest := by
  apply
    run_history_invariant
      (fun taken here =>
        ∃ manifest,
          here.manifest = .holds manifest ∧ Written args taken manifest)
      _ _ ran
  · rcases written_of_build built with ⟨manifest, stored, written, -⟩
    exact ⟨manifest, stored, written⟩
  · rintro taken (⟨present, files⟩ | ⟨igvm, firmwareFile, faults⟩)
      before next - ⟨manifest, stored, written⟩ stepped
    · cases stepped
      have runs :
          igvmRuns (taken ++ [.edit present files]) = igvmRuns taken := by
        rw [igvmRuns_append]
        exact List.append_nil _
      refine ⟨manifest, stored, ?_⟩
      constructor
      · exact written.format
      · exact written.memory
      · exact written.tdx
      · rw [lastTag, runs]
        exact written.platform
      · intro smp
        rw [AskedFor, runs]
        exact written.counts smp
      · exact written.positive
    · rw [successStep] at stepped
      cases outcome : runIn tools before igvm firmwareFile faults with
      | error problem failed =>
          rw [outcome] at stepped
          cases stepped
      | ok value final =>
          rw [outcome] at stepped
          cases stepped
          exact written.igvm stored outcome

end

/-! ## What the arguments decide -/

theorem Written.smps_le_iff
    {args : BuildArgs} {actions : List Action} {manifest : BuildManifest}
    (written : Written args actions manifest) :
    (∀ variant ∈ manifest.snpVariants,
        variant.smp ≠ 0 ∧ variant.smp ≤ 1024) ↔
      ∀ smp, AskedFor args actions smp → smp ≤ 1024 := by
  constructor
  · intro small smp asked
    rcases List.mem_map.1 ((written.counts smp).2 asked) with
      ⟨variant, member, rfl⟩
    exact (small variant member).2
  · intro small variant member
    refine ⟨written.positive variant member, small _ ?_⟩
    exact
      (written.counts _).1 (List.mem_map.2 ⟨variant, member, rfl⟩)

/-- Some variant is there exactly when some count was asked for. -/
theorem Written.isEmpty_eq_false_iff
    {args : BuildArgs} {actions : List Action} {manifest : BuildManifest}
    (written : Written args actions manifest)
    (someAsked : wantsSnp args = true → args.smp ≠ []) :
    manifest.snpVariants.isEmpty = false ↔
      wantsSnp args = true ∨ igvmRuns actions ≠ [] := by
  rw [List.isEmpty_eq_false_iff_exists_mem]
  constructor
  · rintro ⟨variant, member⟩
    have asked :=
      (written.counts variant.smp).1 (List.mem_map.2 ⟨variant, member, rfl⟩)
    rcases asked with ⟨wanted, -⟩ | ⟨igvm, inRuns, -⟩
    · exact Or.inl wanted
    · exact Or.inr (List.ne_nil_of_mem inRuns)
  · intro asked
    have count : ∃ smp, AskedFor args actions smp := by
      rcases asked with wanted | some
      · rcases List.exists_mem_of_ne_nil _ (someAsked wanted) with
          ⟨smp, member⟩
        exact ⟨smp, Or.inl ⟨wanted, member⟩⟩
      · rcases List.exists_mem_of_ne_nil _ some with ⟨igvm, inRuns⟩
        rcases List.exists_mem_of_ne_nil _ igvm.smp_nonempty with
          ⟨smp, member⟩
        exact ⟨smp, Or.inr ⟨igvm, inRuns, member⟩⟩
    rcases count with ⟨smp, askedFor⟩
    rcases List.mem_map.1 ((written.counts smp).2 askedFor) with
      ⟨variant, member, -⟩
    exact ⟨variant, member⟩

theorem wantsSnp_or_wantsTdx (args : BuildArgs) :
    wantsSnp args = true ∨ wantsTdx args = true := by
  rcases args with ⟨_ | _ | _, _ | _⟩
  all_goals
    first
    | exact Or.inl rfl
    | exact Or.inr rfl

/-- The counts are all that is left to check once the tag is right. -/
theorem Written.runnable_of_tag
    {args : BuildArgs} {actions : List Action} {manifest : BuildManifest}
    (written : Written args actions manifest)
    (allowed : lastTag args actions ∈ allowedPlatforms)
    (documented : documentedTag manifest = some (lastTag args actions)) :
    Runnable manifest ↔
      ∀ smp, AskedFor args actions smp → smp ≤ 1024 := by
  have format : manifest.build.format ∈ allowedDiskFormats := by
    rw [written.format]
    decide
  rw [Runnable, validateManifestFields_eq_ok_iff, written.smps_le_iff,
    written.platform]
  constructor
  · rintro ⟨⟨-, -, -, small⟩, -⟩
    exact small
  · intro small
    exact ⟨⟨format, allowed, written.memory, small⟩, documented⟩

/-- Whether a manifest can be run follows from the arguments alone. -/
theorem Written.runnable_iff
    {args : BuildArgs} {actions : List Action} {manifest : BuildManifest}
    (written : Written args actions manifest)
    (someAsked : wantsSnp args = true → args.smp ≠ []) :
    Runnable manifest ↔ StaysRunnable args actions := by
  have blocks := written.isEmpty_eq_false_iff someAsked
  rw [StaysRunnable]
  by_cases noRuns : igvmRuns actions = []
  · rw [written.runnable_of_tag]
    · exact ⟨fun small => ⟨fun _ => noRuns, small⟩, fun stays => stays.2⟩
    · rw [lastTag, if_pos noRuns]
      cases wantsSnp args <;> cases wantsTdx args <;> decide
    · rw [documentedTag, lastTag, if_pos noRuns, written.tdx]
      have some := wantsSnp_or_wantsTdx args
      cases snp : wantsSnp args with
      | true =>
          rw [blocks.2 (Or.inl snp)]
          cases wantsTdx args <;> rfl
      | false =>
          have empty : manifest.snpVariants.isEmpty = true := by
            rw [← Bool.not_eq_false, blocks]
            simp [snp, noRuns]
          rw [empty]
          rw [snp] at some
          rcases some with impossible | tdx
          · cases impossible
          · rw [tdx]
  · cases tdx : wantsTdx args with
    | true =>
        have tag : lastTag args actions = "both" := by
          rw [lastTag, if_neg noRuns, tdx]
          rfl
        constructor
        · intro runnable
          have allowed :=
            (validateManifestFields_eq_ok_iff.1 runnable.1).2.1
          rw [written.platform, tag] at allowed
          exact absurd allowed (by decide)
        · rintro ⟨noImages, -⟩
          exact (noRuns (noImages rfl)).elim
    | false =>
        have tag : lastTag args actions = "snp" := by
          rw [lastTag, if_neg noRuns, tdx]
          rfl
        rw [written.runnable_of_tag]
        · exact ⟨fun small => ⟨nofun, small⟩, fun stays => stays.2⟩
        · rw [tag]
          decide
        · rw [documentedTag, tag, written.tdx, tdx,
            blocks.2 (Or.inr noRuns)]

/--
After a build and successful runs of `confos igvm`, with files changed in
between, `confos run` takes the manifest and its tag is the documented one
exactly when no image was derived for a TDX build and no vCPU count asked for
is above 1024.
-/
theorem run_runnable_iff
    {tools : Tools} {args : BuildArgs} {products : BuildProducts}
    {dir after : OutputDir} {actions : List Action}
    (built : BuildCommand.run tools args products = .ok dir)
    (ran : Library.Machines.run (successStep tools) dir actions = some after) :
    ∃ manifest,
      after.manifest = .holds manifest ∧
        (Runnable manifest ↔ StaysRunnable args actions) := by
  rcases written_of_build built with ⟨-, -, -, someAsked⟩
  rcases written_of_run built ran with ⟨manifest, stored, written⟩
  exact ⟨manifest, stored, written.runnable_iff someAsked⟩

/-! ## Two histories -/

/-- A run that asks for one vCPU, with the sample firmware. -/
def sampleRun : Action :=
  .igvm { dir := "out", smp := [1], firmware := "OVMF.fd",
          smp_nonempty := List.cons_ne_nil _ _ }
    sampleProducts.snpFirmware []

/-- The directory after a build of the sample and one such run. -/
def sampleHistory (platform : BuildPlatform) : Option OutputDir := do
  let dir ←
    (BuildCommand.run sampleTools { platform, smp := [1] }
      sampleProducts).toOption
  Library.Machines.run (successStep sampleTools) dir [sampleRun]

/-- What a history that came through consists of. -/
theorem exists_of_sampleHistory
    {platform : BuildPlatform}
    (through : (sampleHistory platform).isSome = true) :
    ∃ dir after,
      BuildCommand.run sampleTools { platform, smp := [1] } sampleProducts =
          .ok dir ∧
        Library.Machines.run (successStep sampleTools) dir [sampleRun] =
          some after := by
  rcases Option.isSome_iff_exists.1 through with ⟨after, came⟩
  rcases Option.bind_eq_some_iff.1 came with ⟨dir, built, ran⟩
  cases outcome :
      BuildCommand.run sampleTools { platform, smp := [1] } sampleProducts with
  | error problem =>
      rw [outcome] at built
      cases built
  | ok made =>
      rw [outcome] at built
      cases built
      exact ⟨dir, after, rfl, ran⟩

/-- An SNP build and a run for one vCPU. -/
theorem run_runnable_iff_snpBuild :
    ∃ dir after manifest,
      BuildCommand.run sampleTools { platform := .snp, smp := [1] }
          sampleProducts = .ok dir ∧
        Library.Machines.run (successStep sampleTools) dir [sampleRun] =
          some after ∧
        after.manifest = .holds manifest ∧
          (Runnable manifest ↔
            StaysRunnable { platform := .snp, smp := [1] } [sampleRun]) := by
  rcases @exists_of_sampleHistory .snp (by decide +kernel) with
    ⟨dir, after, built, ran⟩
  rcases run_runnable_iff built ran with ⟨manifest, stored, decided⟩
  exact ⟨dir, after, manifest, built, ran, stored, decided⟩

/-- A build for both platforms and a run for one vCPU: the tag is `both`. -/
theorem not_runnable_bothBuild :
    ∃ dir after manifest,
      BuildCommand.run sampleTools { platform := .both, smp := [1] }
          sampleProducts = .ok dir ∧
        Library.Machines.run (successStep sampleTools) dir [sampleRun] =
          some after ∧
        after.manifest = .holds manifest ∧
          manifest.build.platform = "both" ∧ ¬ Runnable manifest := by
  rcases @exists_of_sampleHistory .both (by decide +kernel) with
    ⟨dir, after, built, ran⟩
  rcases written_of_run built ran with ⟨manifest, stored, written⟩
  have decided :=
    written.runnable_iff fun _ => List.cons_ne_nil _ _
  refine ⟨dir, after, manifest, built, ran, stored, written.platform, ?_⟩
  rw [decided]
  rintro ⟨noImages, -⟩
  have impossible := noImages rfl
  cases impossible

end Confos.Image.Tags
