import Confos.Igvm.Build
import Confos.Library.Fallible

/-!
# Processors and pages

A build collects the contexts of its processors first and its pages after
them.  The operations on pages neither look at the contexts nor at the
platforms, so what they collect can be told apart from what stands before it.
-/

namespace Confos.Igvm.Contexts

open Confos.Library.ByteStrings
open Confos.Library.Fallible
open Confos.Igvm.X86Regs
open Confos.Igvm.Directives
open Confos.Igvm.Ovmf
open Confos.Igvm.Hob
open Confos.Igvm.Builder
open Confos.Igvm.Builder.IgvmBuilder
open Confos.Igvm.Build

/-! ## The two parts of a build -/

/-- Every operation on pages commutes with a change of the builder. -/
structure Unseen (change : IgvmBuilder → IgvmBuilder) : Prop where
  policy :
    ∀ builder policy,
      (change builder).addSnpPolicy policy =
        change (builder.addSnpPolicy policy)
  snpPages :
    ∀ builder ovmfMeta,
      (change builder).addOvmfSnpPages ovmfMeta =
        change (builder.addOvmfSnpPages ovmfMeta)
  params :
    ∀ builder ovmfMeta,
      (change builder).addOvmfIgvmParams ovmfMeta =
        change (builder.addOvmfIgvmParams ovmfMeta)
  dataPages :
    ∀ builder base data flags,
      (change builder).addDataPagesFlags base data flags =
        change (builder.addDataPagesFlags base data flags)
  remove :
    ∀ builder base size,
      (change builder).removePageDataInRange base size =
        change (builder.removePageDataInRange base size)

section

variable {change : IgvmBuilder → IgvmBuilder}

theorem Unseen.foldl_placeBlob
    (unseen : Unseen change) (flags : IgvmPageDataFlags)
    (placed : List (Nat × Bytes)) (builder : IgvmBuilder) :
    placed.foldl (placeBlob flags) (change builder) =
      change (placed.foldl (placeBlob flags) builder) := by
  induction placed generalizing builder with
  | nil => rfl
  | cons blob placed induction =>
      have first :
          placeBlob flags (change builder) blob =
            change (placeBlob flags builder blob) := by
        rw [placeBlob, placeBlob, unseen.remove, unseen.dataPages]
      rw [List.foldl_cons, List.foldl_cons, first]
      exact induction _

theorem Unseen.placeHobs
    (unseen : Unseen change) (builder : IgvmBuilder) (hobArea : OvmfRegion)
    (list : IgvmDataList) :
    placeHobs (change builder) hobArea list =
      change (placeHobs builder hobArea list) := by
  rw [Build.placeHobs, Build.placeHobs, addDataPages, addDataPages,
    unseen.remove, unseen.dataPages, unseen.foldl_placeBlob,
    unseen.foldl_placeBlob]

theorem Unseen.addHobData
    (unseen : Unseen change) (builder : IgvmBuilder)
    (ovmfMeta : Option OvmfMeta) (inputs : HobInputs) :
    addHobData (change builder) ovmfMeta inputs =
      (addHobData builder ovmfMeta inputs).map change := by
  rw [Build.addHobData, Build.addHobData]
  split
  · rfl
  · split
    · rfl
    · rw [unseen.placeHobs]
      rfl

theorem Unseen.addFirmware
    (unseen : Unseen change) (config : BuildConfig)
    (ovmfMeta : Option OvmfMeta) (builder : IgvmBuilder) :
    addFirmware config ovmfMeta (change builder) =
      change (addFirmware config ovmfMeta builder) := by
  have data (base : Nat) (bytes : Bytes) (other : IgvmBuilder) :
      (change other).addDataPages base bytes =
        change (other.addDataPages base bytes) :=
    unseen.dataPages other base bytes {}
  simp only [Build.addFirmware]
  cases ovmfMeta <;> cases config.bootMode <;> cases config.vars <;>
    simp only [addUefivars, addFirmware4g, addFirmware1m, data, unseen.params]

end

/-! ## What the operations add is no context -/

section

variable {config : BuildConfig} {ovmfMeta : Option OvmfMeta}
    {builder after : IgvmBuilder}

end

end Confos.Igvm.Contexts
