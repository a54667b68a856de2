import Confos.Image.Derivation
import Confos.Library.Cells
import Confos.Library.Text

/-!
# Undisturbed runs

Where no file operation fails, the loop of `confos igvm` is a loop over
independent cells: for each vCPU count its entry in the manifest and its file.
A turn keeps a cell whose file has the recorded hash and otherwise fills it
with what building the image gives, after which the hash is the recorded one.
-/

namespace Confos.Image.Undisturbed

open Confos.Library
open Confos.Library.ByteStrings
open Confos.Library.Effects
open Confos.Library.Cells
open Confos.Library.Text (toDigits_injective)
open Confos.Igvm.Build
open Confos.Image.Manifest
open Confos.Image.Files
open Confos.Image.IgvmCommand
open Confos.Image.Derivation

/-! ## Operations that do not fail -/

section

variable {world after : World} {name : String} {bytes : Bytes}

theorem takeFault_undisturbed
    {next : Option Fault → Program α} (undisturbed : world.faults = []) :
    (takeFault >>= next) world = next none world := by
  rcases world with ⟨dir, firmwareFile, faults⟩
  cases undisturbed
  rfl

theorem readFile_undisturbed (undisturbed : world.faults = []) :
    readFile name world = .ok bytes after ↔
      world.dir.files name = some bytes ∧ world = after := by
  rw [readFile, takeFault_undisturbed undisturbed]
  constructor
  · intro continued
    rcases bind_eq_ok.1 continued with ⟨current, there, got, final⟩
    cases got
    cases found : world.dir.files name with
    | none =>
        simp only [found] at final
        exact (throw_ne_ok final).elim
    | some contents =>
        simp only [found] at final
        rcases pure_eq_ok.1 final with ⟨rfl, same⟩
        exact ⟨rfl, same⟩
  · rintro ⟨found, rfl⟩
    apply bind_eq_ok.2
    refine ⟨world, world, rfl, ?_⟩
    simp only [found]
    rfl

theorem readFirmware_undisturbed
    {path : String} (undisturbed : world.faults = []) :
    readFirmware path world = .ok bytes after ↔
      world.firmwareFile = some bytes ∧ world = after := by
  rw [readFirmware, takeFault_undisturbed undisturbed]
  constructor
  · intro continued
    rcases bind_eq_ok.1 continued with ⟨current, there, got, final⟩
    cases got
    cases found : world.firmwareFile with
    | none =>
        simp only [found] at final
        exact (throw_ne_ok final).elim
    | some contents =>
        simp only [found] at final
        rcases pure_eq_ok.1 final with ⟨rfl, same⟩
        exact ⟨rfl, same⟩
  · rintro ⟨found, rfl⟩
    apply bind_eq_ok.2
    refine ⟨world, world, rfl, ?_⟩
    simp only [found]
    rfl

theorem writeFile_undisturbed (undisturbed : world.faults = []) :
    writeFile name bytes world = .ok () after ↔
      world.setFile name bytes = after := by
  rw [writeFile, takeFault_undisturbed undisturbed]
  constructor
  · intro continued
    cases continued
    rfl
  · rintro rfl
    rfl

theorem readManifest_undisturbed
    {dir : String} {manifest : BuildManifest}
    (undisturbed : world.faults = []) :
    readManifest dir world = .ok manifest after ↔
      world.dir.manifest = .holds manifest ∧
        manifest.version = manifestVersion ∧ world = after := by
  rw [readManifest, takeFault_undisturbed undisturbed]
  constructor
  · intro continued
    rcases bind_eq_ok.1 continued with ⟨current, there, got, final⟩
    cases got
    cases found : world.dir.manifest with
    | missing =>
        simp only [found] at final
        exact (throw_ne_ok final).elim
    | garbled =>
        simp only [found] at final
        exact (throw_ne_ok final).elim
    | holds stored =>
        simp only [found] at final
        rcases guard_eq_ok.1 final with ⟨version, returned⟩
        rcases pure_eq_ok.1 returned with ⟨rfl, same⟩
        exact ⟨rfl, not_not.1 version, same⟩
  · rintro ⟨found, version, rfl⟩
    apply bind_eq_ok.2
    refine ⟨world, world, rfl, ?_⟩
    simp only [found]
    exact guard_eq_ok.2 ⟨not_not.2 version, rfl⟩

theorem writeManifest_undisturbed
    {manifest : BuildManifest} (undisturbed : world.faults = []) :
    writeManifest manifest world = .ok () after ↔
      world.setManifest (.holds manifest) = after := by
  rw [writeManifest, takeFault_undisturbed undisturbed]
  constructor
  · intro continued
    cases continued
    rfl
  · rintro rfl
    rfl

end

/-! ## The names of the images -/

theorem toList_igvmName (smp : UInt32) :
    (igvmName smp).toList =
      "guest-smp".toList ++ (Nat.toDigits 10 smp.toNat ++ ".igvm".toList) := by
  have digits : (toString smp).toList = Nat.toDigits 10 smp.toNat := by
    rw [show toString smp = Nat.repr smp.toNat from rfl, Nat.toList_repr]
  rw [← digits, ← String.toList_append, ← String.toList_append,
    ← String.append_assoc]
  rfl

theorem igvmName_injective : Function.Injective igvmName := by
  intro left right same
  have lists := congrArg String.toList same
  rw [toList_igvmName, toList_igvmName] at lists
  have digits :=
    List.append_cancel_right (List.append_cancel_left lists)
  exact UInt32.toNat_inj.1 (toDigits_injective digits)

/-- No image has the name of one of the inputs. -/
theorem igvmName_ne
    {name : String} (smp : UInt32) (first : name.toList.head? ≠ some 'g') :
    name ≠ igvmName smp := by
  rintro rfl
  rw [toList_igvmName] at first
  exact first rfl

/-! ## The cells -/

/-- The entry of a vCPU count and the contents of its file. -/
abbrev VariantCell := Option SnpVariant × Option Bytes

def cellsOf (build : BuildManifest) (world : World) : UInt32 → VariantCell :=
  fun smp =>
    (build.snpVariants.find? (·.smp = smp), world.dir.files (igvmName smp))

section

variable (tools : Tools) (firmware uki : Bytes)

/-- Whether the file of a cell has the hash of its entry. -/
def cellUnchanged : VariantCell → Bool
  | (some existing, some igvm) =>
      fileHash tools igvm = existing.igvm.sha256
  | _ => false

/-- The cell of a built image. -/
def builtCell (smp : UInt32) (result : BuildResult) : VariantCell :=
  (some (snpVariant smp result (fileHash tools result.igvmBytes)),
    some result.igvmBytes)

/-- What one turn of the loop does to its cell. -/
def deriveCell (smp : UInt32) (cell : VariantCell) :
    Except String VariantCell :=
  if smp = 0 then
    .error "SMP count must be >= 1"
  else if cellUnchanged tools cell then
    .ok cell
  else
    (buildSnp tools firmware uki smp).map (builtCell tools smp)

theorem cellUnchanged_builtCell (smp : UInt32) (result : BuildResult) :
    cellUnchanged tools (builtCell tools smp result) = true :=
  decide_eq_true rfl

theorem deriveCell_idempotent : Idempotent (deriveCell tools firmware uki) := by
  intro smp cell next derived
  rw [deriveCell] at derived
  split at derived
  · cases derived
  · rename_i positive
    split at derived
    · rename_i unchanged
      cases derived
      rw [deriveCell, if_neg positive, if_pos unchanged]
    · cases built : buildSnp tools firmware uki smp with
      | error problem =>
          rw [built] at derived
          cases derived
      | ok result =>
          rw [built] at derived
          cases derived
          rw [deriveCell, if_neg positive,
            if_pos (cellUnchanged_builtCell tools smp result)]

theorem find?_upsertVariant
    (variant : SnpVariant) (variants : List SnpVariant) (smp : UInt32) :
    (upsertVariant variant variants).find? (·.smp = smp) =
      if smp = variant.smp then some variant
      else variants.find? (·.smp = smp) := by
  induction variants with
  | nil =>
      by_cases same : smp = variant.smp
      · simp [upsertVariant, same]
      · simp [upsertVariant, same, Ne.symm same]
  | cons existing rest induction =>
      rw [upsertVariant]
      by_cases replaced : existing.smp = variant.smp
      · rw [if_pos replaced]
        by_cases same : smp = variant.smp
        · simp [same]
        · simp [same, replaced, Ne.symm same]
      · rw [if_neg replaced, List.find?_cons, induction, List.find?_cons]
        by_cases same : smp = variant.smp
        · simp [same, replaced]
        · rw [if_neg same, if_neg same]

/-! ## What the loop leaves alone -/

/-- A manifest without its entries and its tag. -/
def untagged (build : BuildManifest) : BuildManifest :=
  { build with
    snpVariants := []
    build := { build.build with platform := "" } }

/-- Two states of a run that differ in their cells at most. -/
structure SameFrame
    (build : BuildManifest) (world : World)
    (next : BuildManifest) (after : World) : Prop where
  untagged_eq : untagged next = untagged build
  faults : after.faults = world.faults
  firmwareFile : after.firmwareFile = world.firmwareFile
  present : after.dir.present = world.dir.present
  files :
    ∀ name, (∀ smp, name ≠ igvmName smp) →
      after.dir.files name = world.dir.files name

section

variable {build next last : BuildManifest} {world after final : World}

theorem SameFrame.refl (build : BuildManifest) (world : World) :
    SameFrame build world build world :=
  ⟨rfl, rfl, rfl, rfl, fun _ _ => rfl⟩

theorem SameFrame.symm (same : SameFrame build world next after) :
    SameFrame next after build world :=
  ⟨same.untagged_eq.symm, same.faults.symm, same.firmwareFile.symm,
    same.present.symm, fun name other => (same.files name other).symm⟩

theorem SameFrame.trans
    (first : SameFrame build world next after)
    (second : SameFrame next after last final) :
    SameFrame build world last final :=
  ⟨second.untagged_eq.trans first.untagged_eq,
    second.faults.trans first.faults,
    second.firmwareFile.trans first.firmwareFile,
    second.present.trans first.present,
    fun name other =>
      (second.files name other).trans (first.files name other)⟩

end

/-! ## One turn -/

theorem isUnchanged_eq_ok
    {build : BuildManifest} {smp : UInt32} {world after : World}
    {unchanged : Bool} (undisturbed : world.faults = []) :
    isUnchanged tools build smp world = .ok unchanged after ↔
      cellUnchanged tools (cellsOf build world smp) = unchanged ∧
        world = after := by
  rw [isUnchanged, cellsOf]
  cases build.snpVariants.find? (·.smp = smp) with
  | none => exact pure_eq_ok
  | some existing =>
      dsimp only
      rw [bind_eq_ok]
      cases found : world.dir.files (igvmName smp) with
      | none =>
          constructor
          · rintro ⟨exists?, middle, looked, continued⟩
            rcases fileExists_eq_ok looked with ⟨rfl, rfl⟩
            rw [found] at continued
            exact pure_eq_ok.1 continued
          · rintro ⟨rfl, rfl⟩
            refine ⟨false, world, ?_, rfl⟩
            rw [fileExists_eq, found, Option.isSome_none]
      | some igvm =>
          have read :
              readFile (igvmName smp) world = .ok igvm world :=
            (readFile_undisturbed undisturbed).2 ⟨found, rfl⟩
          have looks :
              fileExists (igvmName smp) world = .ok true world := by
            rw [fileExists_eq, found, Option.isSome_some]
          have hashes :
              (tryCatch
                (do
                  let igvm ← readFile (igvmName smp)
                  return decide
                    (fileHash tools igvm = existing.igvm.sha256))
                fun _ => return false : Program Bool) world =
                .ok (decide (fileHash tools igvm = existing.igvm.sha256))
                  world := by
            apply tryCatch_eq_ok.2
            exact Or.inl (bind_eq_ok.2 ⟨igvm, world, read, rfl⟩)
          constructor
          · rintro ⟨exists?, middle, looked, continued⟩
            cases looks.symm.trans looked
            cases hashes.symm.trans continued
            exact ⟨rfl, rfl⟩
          · rintro ⟨rfl, rfl⟩
            exact ⟨true, world, looks, hashes⟩

theorem cellsOf_rebuilt
    (build : BuildManifest) (world : World) (smp : UInt32)
    (result : BuildResult) :
    cellsOf
        { build with
          snpVariants :=
            upsertVariant
              (snpVariant smp result (fileHash tools result.igvmBytes))
              build.snpVariants }
        (world.setFile (igvmName smp) result.igvmBytes) =
      Function.update (cellsOf build world) smp (builtCell tools smp result) := by
  funext other
  by_cases same : other = smp
  · rw [same, Function.update_self]
    apply Prod.ext
    · exact (find?_upsertVariant _ _ smp).trans (if_pos rfl)
    · exact world.dir.setFile_files_self (igvmName smp) result.igvmBytes
  · rw [Function.update_of_ne same]
    apply Prod.ext
    · exact (find?_upsertVariant _ _ other).trans (if_neg same)
    · apply world.dir.setFile_files_of_ne
      exact fun sameName => same (igvmName_injective sameName)

theorem rebuildVariant_of_result
    {build : BuildManifest} {smp : UInt32} {world : World}
    {result : BuildResult} (undisturbed : world.faults = [])
    (built : buildSnp tools firmware uki smp = .ok result) :
    rebuildVariant tools firmware uki build smp world =
      .ok
        { build with
          snpVariants :=
            upsertVariant
              (snpVariant smp result (fileHash tools result.igvmBytes))
              build.snpVariants }
        (world.setFile (igvmName smp) result.igvmBytes) := by
  rw [rebuildVariant, built]
  apply bind_eq_ok.2
  refine ⟨(), _, (writeFile_undisturbed undisturbed).2 rfl, ?_⟩
  apply bind_eq_ok.2
  have found :
      (world.setFile (igvmName smp) result.igvmBytes).dir.files
          (igvmName smp) = some result.igvmBytes :=
    world.dir.setFile_files_self (igvmName smp) result.igvmBytes
  refine
    ⟨result.igvmBytes, _,
      (@readFile_undisturbed
        (world.setFile (igvmName smp) result.igvmBytes) _ _ _
        undisturbed).2 ⟨found, rfl⟩, rfl⟩

/-- A turn succeeds where its cell can be derived, and changes no other. -/
theorem turn_of_cell
    {build : BuildManifest} {smp : UInt32} {world : World}
    {cell : VariantCell} (undisturbed : world.faults = [])
    (derived :
      deriveCell tools firmware uki smp (cellsOf build world smp) =
        .ok cell) :
    ∃ next after,
      deriveVariant tools firmware uki build smp world = .ok next after ∧
        cellsOf next after =
            Function.update (cellsOf build world) smp cell ∧
          SameFrame build world next after := by
  rw [deriveCell] at derived
  split at derived
  · cases derived
  · rename_i positive
    have checked :
        (ensure (smp ≠ 0) "SMP count must be >= 1" : Program Unit) world =
          .ok () world :=
      ensure_eq_ok.2 ⟨positive, rfl⟩
    split at derived
    · rename_i unchanged
      cases derived
      refine ⟨build, world, ?_, ?_, SameFrame.refl build world⟩
      · apply bind_eq_ok.2
        refine ⟨(), world, checked, ?_⟩
        apply bind_eq_ok.2
        exact
          ⟨true, world, (isUnchanged_eq_ok tools undisturbed).2
            ⟨unchanged, rfl⟩, rfl⟩
      · rw [Function.update_eq_self]
    · rename_i changed
      cases built : buildSnp tools firmware uki smp with
      | error problem =>
          rw [built] at derived
          cases derived
      | ok result =>
          rw [built] at derived
          cases derived
          refine
            ⟨_, _, ?_, cellsOf_rebuilt tools build world smp result, ?_⟩
          · apply bind_eq_ok.2
            refine ⟨(), world, checked, ?_⟩
            apply bind_eq_ok.2
            exact
              ⟨false, world, (isUnchanged_eq_ok tools undisturbed).2
                ⟨Bool.not_eq_true _ ▸ changed, rfl⟩,
                rebuildVariant_of_result tools firmware uki undisturbed
                  built⟩
          · refine ⟨rfl, rfl, rfl, rfl, ?_⟩
            intro name other
            exact world.dir.setFile_files_of_ne _ (other smp)

theorem cell_of_turn
    {build next : BuildManifest} {smp : UInt32} {world after : World}
    (undisturbed : world.faults = [])
    (ran :
      deriveVariant tools firmware uki build smp world = .ok next after) :
    updateAt (deriveCell tools firmware uki) (cellsOf build world) smp =
        .ok (cellsOf next after) ∧
      SameFrame build world next after := by
  have derivable :
      ∃ cell,
        deriveCell tools firmware uki smp (cellsOf build world smp) =
          .ok cell := by
    rw [deriveVariant] at ran
    rcases bind_eq_ok.1 ran with ⟨_, first, checked, looking⟩
    rcases ensure_eq_ok.1 checked with ⟨positive, rfl⟩
    rcases bind_eq_ok.1 looking with ⟨unchanged, second, looked, finishing⟩
    rcases (isUnchanged_eq_ok tools undisturbed).1 looked with ⟨same, rfl⟩
    rw [deriveCell, if_neg positive, same]
    cases unchanged with
    | true => exact ⟨_, rfl⟩
    | false =>
        rcases rebuildVariant_eq_ok tools finishing with
          ⟨variant, ⟨result, built, -⟩, rfl, -⟩
        exact ⟨_, by rw [built]; rfl⟩
  rcases derivable with ⟨cell, derived⟩
  rcases turn_of_cell tools firmware uki undisturbed derived with
    ⟨otherNext, otherAfter, otherRan, cells, frame⟩
  cases ran.symm.trans otherRan
  refine ⟨?_, frame⟩
  rw [updateAt, derived, cells]
  rfl

/-! ## The loop -/

theorem cells_of_loop
    {smps : List UInt32} {build next : BuildManifest} {world after : World}
    (undisturbed : world.faults = [])
    (ran :
      smps.foldlM (deriveVariant tools firmware uki) build world =
        .ok next after) :
    smps.foldlM (updateAt (deriveCell tools firmware uki))
          (cellsOf build world) = .ok (cellsOf next after) ∧
      SameFrame build world next after := by
  induction smps generalizing build world with
  | nil =>
      rcases pure_eq_ok.1 ran with ⟨rfl, rfl⟩
      exact ⟨rfl, SameFrame.refl build world⟩
  | cons smp smps induction =>
      rw [List.foldlM_cons] at ran
      rcases bind_eq_ok.1 ran with ⟨middle, between, turned, rest⟩
      rcases cell_of_turn tools firmware uki undisturbed turned with
        ⟨updated, frame⟩
      rcases induction (frame.faults.trans undisturbed) rest with
        ⟨looped, restFrame⟩
      refine ⟨?_, frame.trans restFrame⟩
      rw [List.foldlM_cons, updated]
      exact looped

theorem loop_of_cells
    {smps : List UInt32} {build : BuildManifest} {world : World}
    {cells : UInt32 → VariantCell} (undisturbed : world.faults = [])
    (looped :
      smps.foldlM (updateAt (deriveCell tools firmware uki))
        (cellsOf build world) = .ok cells) :
    ∃ next after,
      smps.foldlM (deriveVariant tools firmware uki) build world =
          .ok next after ∧
        cellsOf next after = cells ∧ SameFrame build world next after := by
  induction smps generalizing build world with
  | nil =>
      cases looped
      exact ⟨build, world, rfl, rfl, SameFrame.refl build world⟩
  | cons smp smps induction =>
      rw [List.foldlM_cons] at looped
      rcases Fallible.bind_eq_ok.1 looped with ⟨middle, updated, rest⟩
      rw [updateAt] at updated
      cases derived :
          deriveCell tools firmware uki smp (cellsOf build world smp) with
      | error problem =>
          rw [derived] at updated
          cases updated
      | ok cell =>
          rw [derived] at updated
          cases updated
          rcases turn_of_cell tools firmware uki undisturbed derived with
            ⟨between, there, turned, cellsThere, frame⟩
          rw [← cellsThere] at rest
          rcases induction (frame.faults.trans undisturbed) rest with
            ⟨next, after, ran, cellsAfter, restFrame⟩
          refine ⟨next, after, ?_, cellsAfter, frame.trans restFrame⟩
          rw [List.foldlM_cons]
          exact bind_eq_ok.2 ⟨between, there, turned, ran⟩

end

end Confos.Image.Undisturbed
