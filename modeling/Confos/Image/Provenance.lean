import Confos.Image.BuildCommand
import Confos.Image.Derivation
import Confos.Library.Machines

/-!
# Where the entries of a manifest come from

Every entry of a sealed manifest is what building its vCPU count from the
recorded firmware and UKI gives.  A run keeps an entry on the strength of one
hash and replaces others, may fail anywhere, and files change between runs;
what the run checks first makes all of them come from the same two files.
-/

namespace Confos.Image.Provenance

open Confos.Library.ByteStrings
open Confos.Library.Fallible
open Confos.Library.Effects
open Confos.Library.Machines
open Confos.Image.Manifest
open Confos.Image.Files
open Confos.Image.BuildCommand
open Confos.Image.IgvmCommand (finishManifest)
open Confos.Image.Derivation

section

variable (tools : Tools)

/-! ## The files involved -/

/-- The files a run hashes to see whether they are the recorded ones. -/
def inspected (dir : OutputDir) : Action → Set Bytes
  | .edit _ _ => ∅
  | .igvm _ firmwareFile _ =>
      {bytes |
        firmwareFile = some bytes ∨ dir.files "OVMF.fd" = some bytes ∨
          dir.files "uki.efi" = some bytes}

/-- The files a build and the runs after it read and hash. -/
def filesInvolved
    (products : BuildProducts) (dir : OutputDir) (actions : List Action) :
    Set Bytes :=
  {bytes |
    bytes = products.uki ∨ products.snpFirmware = some bytes ∨
      ∃ taken action later here,
        actions = taken ++ action :: later ∧
          Library.Machines.run (step tools) dir taken = some here ∧
            bytes ∈ inspected here action}

/-! ## Provenance -/

/--
The recorded hashes are those of a UKI and, with entries, of a firmware among
the known files, and every entry holds what building its vCPU count from the
files with these hashes gives; no vCPU count has two entries.
-/
structure HasProvenance (known : Set Bytes) (manifest : BuildManifest) :
    Prop where
  distinct : (manifest.snpVariants.map (·.smp)).Nodup
  uki :
    ∃ uki ∈ known, fileHash tools uki = manifest.outputs.uki.sha256
  firmware :
    manifest.snpVariants ≠ [] →
      ∃ recorded, manifest.inputs.firmware = some recorded ∧
        ∃ firmware ∈ known, fileHash tools firmware = recorded.sha256
  built :
    ∀ recorded, manifest.inputs.firmware = some recorded →
      ∀ firmware ∈ known, fileHash tools firmware = recorded.sha256 →
        ∀ uki ∈ known, fileHash tools uki = manifest.outputs.uki.sha256 →
          ∀ variant ∈ manifest.snpVariants,
            BuiltFrom tools firmware uki variant

end

section

variable {tools : Tools} {known : Set Bytes}

/-- Entries built from one firmware and UKI, with their hashes recorded. -/
theorem provenance_of_built
    (noCollision : Set.InjOn tools.sha256 known)
    {manifest : BuildManifest} {firmware uki : Bytes}
    (firmwareKnown : firmware ∈ known) (ukiKnown : uki ∈ known)
    (distinct : (manifest.snpVariants.map (·.smp)).Nodup)
    (ukiRecorded : fileHash tools uki = manifest.outputs.uki.sha256)
    {recorded : FileEntry}
    (firmwareEntry : manifest.inputs.firmware = some recorded)
    (firmwareRecorded : fileHash tools firmware = recorded.sha256)
    (built :
      ∀ variant ∈ manifest.snpVariants,
        BuiltFrom tools firmware uki variant) :
    HasProvenance tools known manifest where
  distinct := distinct
  uki := ⟨uki, ukiKnown, ukiRecorded⟩
  firmware := fun _ =>
    ⟨recorded, firmwareEntry, firmware, firmwareKnown, firmwareRecorded⟩
  built := by
    intro other otherEntry otherFirmware otherKnown otherRecorded
      otherUki otherUkiKnown otherUkiRecorded
    rw [firmwareEntry] at otherEntry
    cases otherEntry
    have sameFirmware : otherFirmware = firmware :=
      eq_of_hexHash_eq noCollision otherKnown firmwareKnown
        (otherRecorded.trans firmwareRecorded.symm)
    have sameUki : otherUki = uki :=
      eq_of_hexHash_eq noCollision otherUkiKnown ukiKnown
        (otherUkiRecorded.trans ukiRecorded.symm)
    rw [sameFirmware, sameUki]
    exact built

/-! ## A build -/

theorem builtFrom_of_built
    {firmware uki : Bytes} {smps : List UInt32}
    {variants : List (Bytes × SnpVariant)}
    (built :
      List.Forall₂
        (fun smp built => buildVariant tools firmware uki smp = .ok built)
        smps variants) :
    (variants.map (·.2)).map (·.smp) = smps ∧
      ∀ variant ∈ variants.map (·.2),
        BuiltFrom tools firmware uki variant := by
  induction built with
  | nil => exact ⟨rfl, nofun⟩
  | cons first rest induction =>
      rcases buildVariant_eq_ok tools first with ⟨-, result, measured, rfl⟩
      constructor
      · rw [List.map_cons, List.map_cons, induction.1]
        rfl
      · intro variant member
        rcases List.mem_cons.1 member with rfl | later
        · exact ⟨result, measured, rfl⟩
        · exact induction.2 variant later

/-- The manifest of a build has its provenance from the build's own files. -/
theorem provenance_of_build
    (noCollision : Set.InjOn tools.sha256 known)
    {args : BuildArgs} {products : BuildProducts} {dir : OutputDir}
    (ukiKnown : products.uki ∈ known)
    (firmwareKnown :
      ∀ firmware, products.snpFirmware = some firmware → firmware ∈ known)
    (built : BuildCommand.run tools args products = .ok dir) :
    ∃ manifest,
      dir.manifest = .holds manifest ∧
        HasProvenance tools known manifest := by
  rcases bind_eq_ok.1 built with ⟨platform, -, built⟩
  rcases bind_eq_ok.1 built with ⟨snpFirmware, snpRequired, built⟩
  rcases bind_eq_ok.1 built with ⟨tdxFirmware, -, built⟩
  rcases bind_eq_ok.1 built with ⟨_, -, built⟩
  rcases bind_eq_ok.1 built with ⟨variants, snpBuilt, built⟩
  rcases bind_eq_ok.1 built with ⟨tdx, -, built⟩
  cases built
  refine ⟨_, rfl, ?_⟩
  cases snpFirmware with
  | none =>
      cases snpBuilt
      exact
        { distinct := List.nodup_nil
          uki := ⟨products.uki, ukiKnown, rfl⟩
          firmware := fun some => (some rfl).elim
          built := nofun }
  | some firmware =>
      rcases buildVariants_eq_ok tools snpBuilt with ⟨-, each⟩
      rcases builtFrom_of_built each with ⟨counts, builtFrom⟩
      have supplied : products.snpFirmware = some firmware := by
        have found := (requireFirmware_eq_ok snpRequired).1
        cases needed : platform.needsSnp with
        | false =>
            rw [needed] at found
            cases found
        | true =>
            rw [needed] at found
            exact found.symm
      apply
        provenance_of_built noCollision (firmwareKnown firmware supplied)
          ukiKnown _ rfl rfl rfl builtFrom
      show ((variants.map (·.2)).map (·.smp)).Nodup
      rw [counts]
      exact nodup_sortedSmps args.smp

/-! ## A run -/

/-- A successful run keeps the provenance of the entries. -/
theorem HasProvenance.run
    (noCollision : Set.InjOn tools.sha256 known)
    {dir : OutputDir} {manifest : BuildManifest}
    (stored : dir.manifest = .holds manifest)
    (provenance : HasProvenance tools known manifest)
    {args : IgvmCommand.IgvmArgs} {firmwareFile : Option Bytes}
    {faults : List (Option Fault)} {after : World}
    (filesKnown :
      inspected dir (.igvm args firmwareFile faults) ⊆ known)
    (ran : runIn tools dir args firmwareFile faults = .ok () after) :
    ∃ next,
      after.dir.manifest = .holds next ∧ HasProvenance tools known next := by
  rcases run_eq_ok tools ran with
    ⟨build, supplied, firmware, uki, finish, found, prepared, derives,
      final⟩
  rw [stored] at found
  cases found
  have suppliedKnown : supplied ∈ known :=
    filesKnown (Or.inl prepared.firmwareFile)
  have firmwareKnown : firmware ∈ known := by
    rcases prepared.firmware_file with rfl | output
    · exact suppliedKnown
    · exact filesKnown (Or.inr (Or.inl output))
  have ukiKnown : uki ∈ known :=
    filesKnown (Or.inr (Or.inr prepared.ukiFile))
  have others := derives.others
  have sameUki : finish.outputs = manifest.outputs := by
    rw [← others]
    rfl
  have sameFirmware :
      (finishManifest finish).inputs.firmware =
        some { path := "OVMF.fd", sha256 := fileHash tools supplied } := by
    show finish.inputs.firmware = _
    rw [← others]
    rfl
  -- an old entry comes from the two files this run has checked
  have oldBuilt :
      ∀ variant ∈ manifest.snpVariants,
        BuiltFrom tools firmware uki variant := by
    intro variant member
    have some : manifest.snpVariants ≠ [] := List.ne_nil_of_mem member
    rcases provenance.firmware some with ⟨recorded, entry, -⟩
    apply
      provenance.built recorded entry firmware firmwareKnown _ uki ukiKnown
        prepared.uki_sealed variant member
    exact
      prepared.firmware_hash.trans
        (prepared.firmware_recorded recorded entry).symm
  refine ⟨finishManifest finish, final, ?_⟩
  apply
    provenance_of_built noCollision firmwareKnown ukiKnown _ _ sameFirmware
      prepared.firmware_hash
  · intro variant member
    have inFinish : variant ∈ finish.snpVariants :=
      (List.mem_insertionSort _).1 member
    rcases derives.built variant inFinish with old | new
    · exact oldBuilt variant old
    · exact new
  · exact nodup_insertionSort_smps (derives.nodup provenance.distinct)
  · show fileHash tools uki = finish.outputs.uki.sha256
    rw [sameUki]
    exact prepared.uki_sealed

/-- One action keeps the provenance, or leaves no manifest. -/
theorem provenance_step
    (noCollision : Set.InjOn tools.sha256 known)
    {before after : OutputDir} {action : Action}
    (filesKnown : inspected before action ⊆ known)
    (provenance :
      ∀ manifest, before.manifest = .holds manifest →
        HasProvenance tools known manifest)
    (stepped : step tools before action = some after) :
    ∀ manifest, after.manifest = .holds manifest →
      HasProvenance tools known manifest := by
  intro manifest stored
  cases action with
  | edit present files =>
      cases stepped
      exact provenance manifest stored
  | igvm args firmwareFile faults =>
      cases stepped
      rcases manifestOf_run tools args
          { dir := before, firmwareFile, faults } with ran | kept | cut
      · rcases run_eq_ok tools ran with ⟨build, _, _, _, _, found, -⟩
        rcases HasProvenance.run noCollision found (provenance build found)
            filesKnown ran with ⟨next, written, holds⟩
        rw [runIn] at stored
        rw [stored] at written
        cases written
        exact holds
      · apply provenance manifest
        exact kept.symm.trans stored
      · have impossible := cut.symm.trans stored
        cases impossible

/--
After a build and any runs of `confos igvm`, failed or not, with files changed
in between, every entry of the manifest holds what building its vCPU count
from the recorded firmware and UKI gives.
-/
theorem manifest_provenance
    {args : BuildArgs} {products : BuildProducts} {dir after : OutputDir}
    {actions : List Action}
    (noCollision :
      Set.InjOn tools.sha256 (filesInvolved tools products dir actions))
    (built : BuildCommand.run tools args products = .ok dir)
    (ran : Library.Machines.run (step tools) dir actions = some after) :
    ∀ manifest, after.manifest = .holds manifest →
      HasProvenance tools (filesInvolved tools products dir actions)
        manifest := by
  have ukiKnown :
      products.uki ∈ filesInvolved tools products dir actions :=
    Or.inl rfl
  have firmwareKnown :
      ∀ firmware, products.snpFirmware = some firmware →
        firmware ∈ filesInvolved tools products dir actions :=
    fun _ supplied => Or.inr (Or.inl supplied)
  rcases provenance_of_build noCollision ukiKnown firmwareKnown built with
    ⟨first, stored, provenance⟩
  have invariant :=
    run_history_invariant
      (fun taken here =>
        (∃ later, actions = taken ++ later) →
          ∀ manifest, here.manifest = .holds manifest →
            HasProvenance tools (filesInvolved tools products dir actions)
              manifest)
      (by
        rintro - manifest found
        rw [stored] at found
        cases found
        exact provenance)
      (by
        rintro taken action before next reached holds stepped
          ⟨later, split⟩
        rw [List.append_assoc] at split
        refine
          provenance_step noCollision ?_ (holds ⟨_, split⟩) stepped
        intro bytes inspectedHere
        exact
          Or.inr
            (Or.inr ⟨taken, action, later, before, split, reached,
              inspectedHere⟩))
      ran
  exact invariant ⟨[], (List.append_nil _).symm⟩

end

/-! ## A history -/

theorem twoCounts_ne_nil : ([1, 1] : List UInt32) ≠ [] :=
  List.cons_ne_nil _ _

/-- Someone deletes every image, and a run asks for one vCPU twice. -/
def lossAndRun : List Action :=
  [.edit true fun name =>
      [("uki.efi", sampleProducts.uki),
        ("OVMF.fd", Igvm.Ovmf.hobFirmware 0x810000)].lookup name,
    .igvm { dir := "out", smp := [1, 1], firmware := "OVMF.fd",
            smp_nonempty := twoCounts_ne_nil }
      sampleProducts.snpFirmware []]

theorem filesInvolved_lossAndRun (dir : OutputDir) :
    filesInvolved sampleTools sampleProducts dir lossAndRun ⊆
      {sampleProducts.uki, Igvm.Ovmf.hobFirmware 0x810000} := by
  rintro bytes
    (rfl | supplied | ⟨taken, action, later, here, split, reached, read⟩)
  · exact Or.inl rfl
  · cases supplied
    exact Or.inr rfl
  · rcases taken with _ | ⟨first, _ | ⟨second, taken⟩⟩
    · cases split
      cases read
    · cases split
      cases reached
      rcases read with supplied | output | sealed
      · cases supplied
        exact Or.inr rfl
      · cases output
        exact Or.inr rfl
      · cases sealed
        exact Or.inl rfl
    · have short := congrArg List.length split
      simp [lossAndRun] at short

theorem manifest_provenance_lossAndRun :
    ∃ dir after,
      BuildCommand.run sampleTools { smp := [1] } sampleProducts = .ok dir ∧
        Library.Machines.run (step sampleTools) dir lossAndRun =
          some after ∧
        ∀ manifest, after.manifest = .holds manifest →
          HasProvenance sampleTools
            (filesInvolved sampleTools sampleProducts dir lossAndRun)
            manifest := by
  have comes :
      (BuildCommand.run sampleTools { smp := [1] } sampleProducts).isOk =
        true := by
    decide +kernel
  cases built : BuildCommand.run sampleTools { smp := [1] } sampleProducts with
  | error problem =>
      rw [built] at comes
      cases comes
  | ok dir =>
      refine ⟨dir, _, rfl, rfl, ?_⟩
      apply manifest_provenance _ built rfl
      apply Set.InjOn.mono (filesInvolved_lossAndRun dir)
      have different :
          sampleTools.sha256 sampleProducts.uki ≠
            sampleTools.sha256 (Igvm.Ovmf.hobFirmware 0x810000) := by
        decide +kernel
      rintro left (rfl | rfl) right (rfl | rfl) same
      · rfl
      · exact (different same).elim
      · exact (different same.symm).elim
      · rfl

end Confos.Image.Provenance
