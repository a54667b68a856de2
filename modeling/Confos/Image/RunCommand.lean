import Confos.Image.Manifest
import Confos.Library.Fallible

/-!
# What `confos run` accepts

Before it launches a guest, `confos run` checks the fields of the manifest
that reach the QEMU command line.  The size of the memory is checked the same
way when the image is built.
-/

namespace Confos.Image.RunCommand

open Confos.Library.Fallible
open Confos.Image.Manifest

/-- Digits, and at most one size suffix behind them. -/
def isMemorySize (size : String) : Bool :=
  match size.toList.getLast? with
  | none => false
  | some last =>
      if last ∈ ['K', 'M', 'G', 'T', 'k', 'm', 'g', 't'] then
        size.toList.dropLast.all Char.isDigit
      else
        size.toList.all Char.isDigit

def validateMemory (size : String) : Except String Unit :=
  if isMemorySize size then
    .ok ()
  else
    .error s!"invalid memory format: {size.quote} (expected digits with optional K/M/G/T suffix)"

def allowedDiskFormats : List String := ["raw", "qcow2"]

def allowedPlatforms : List String := ["snp", "tdx", "multi", "generic"]

def validateSmp (variant : SnpVariant) : Except String Unit :=
  if variant.smp = 0 ∨ 1024 < variant.smp then
    .error s!"invalid smp count in manifest variant: {variant.smp} (must be 1-1024)"
  else
    .ok ()

def validateManifestFields (manifest : BuildManifest) : Except String Unit :=
  if manifest.build.format ∉ allowedDiskFormats then
    .error s!"unsupported disk format in manifest: {manifest.build.format.quote} (allowed: {allowedDiskFormats})"
  else if manifest.build.platform ∉ allowedPlatforms then
    .error s!"unsupported platform in manifest: {manifest.build.platform.quote} (allowed: {allowedPlatforms})"
  else do
    validateMemory manifest.build.memory
    manifest.snpVariants.forM validateSmp

theorem validateMemory_eq_ok_iff {size : String} :
    validateMemory size = .ok () ↔ isMemorySize size = true := by
  rw [validateMemory]
  split
  · next valid => simp [valid]
  · next invalid =>
      simp only [invalid, reduceCtorEq]

theorem validateSmp_eq_ok_iff {variant : SnpVariant} :
    validateSmp variant = .ok () ↔ variant.smp ≠ 0 ∧ variant.smp ≤ 1024 := by
  rw [validateSmp, ← UInt32.not_lt]
  split
  · next outside =>
      constructor
      · intro impossible
        cases impossible
      · rintro ⟨positive, small⟩
        rcases outside with zero | large
        · exact (positive zero).elim
        · exact (small large).elim
  · next inside =>
      rw [not_or] at inside
      simp [inside]

/-- What the manifest must hold to be run. -/
theorem validateManifestFields_eq_ok_iff {manifest : BuildManifest} :
    validateManifestFields manifest = .ok () ↔
      manifest.build.format ∈ allowedDiskFormats ∧
        manifest.build.platform ∈ allowedPlatforms ∧
          isMemorySize manifest.build.memory = true ∧
            ∀ variant ∈ manifest.snpVariants,
              variant.smp ≠ 0 ∧ variant.smp ≤ 1024 := by
  rw [validateManifestFields]
  by_cases format : manifest.build.format ∈ allowedDiskFormats
  · rw [if_neg (not_not.2 format)]
    by_cases platform : manifest.build.platform ∈ allowedPlatforms
    · rw [if_neg (not_not.2 platform), bind_eq_ok]
      constructor
      · rintro ⟨_, memory, variants⟩
        refine ⟨format, platform, validateMemory_eq_ok_iff.1 memory, ?_⟩
        intro variant member
        exact validateSmp_eq_ok_iff.1 (forM_eq_ok.1 variants variant member)
      · rintro ⟨-, -, memory, variants⟩
        refine ⟨(), validateMemory_eq_ok_iff.2 memory, ?_⟩
        apply forM_eq_ok.2
        intro variant member
        exact validateSmp_eq_ok_iff.2 (variants variant member)
    · rw [if_pos platform]
      simp [platform]
  · rw [if_pos format]
    simp [format]

end Confos.Image.RunCommand
