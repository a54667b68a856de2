import Confos.Igvm.Contexts
import Confos.Igvm.Measure

/-!
# Measuring contexts and pages apart

Contexts stand before all pages in a sorted file.  Walking over them only
collects their VMSAs and moves the indices of the pages, and the batches of a
walk depend on differences of indices alone.  So the measurement is the one of
the pages by themselves, with the VMSAs of the contexts measured at the end.
-/

namespace Confos.Igvm.ContextsFirst

open Confos.Library.ByteStrings
open Confos.Library.Fallible
open Confos.Igvm.X86Regs
open Confos.Igvm.Directives
open Confos.Igvm.Ovmf
open Confos.Igvm.Builder
open Confos.Igvm.Builder.IgvmBuilder
open Confos.Igvm.Measure
open Confos.Igvm.Build
open Confos.Igvm.Contexts

/-! ## Sorting -/

section

variable (sha384 : Bytes → Digest) (igvmCrate : IgvmCrate)
variable (snpCompat : UInt32) (paramAreas : List (UInt32 × UInt64))

/-! ## States that differ in what stands before the pages -/

/-- A state as it is behind some VMSAs and `offset` more directives. -/
def behind (offset : Nat) (vmsas : List (UInt64 × Bytes))
    (state : MeasureState) : MeasureState :=
  { state with
    vmsaPages := vmsas ++ state.vmsaPages
    lastPageDirectiveIdx := state.lastPageDirectiveIdx.map (· + offset) }

/-- The walk over some directives. -/
def walk (directives : List IgvmDirectiveHeader) : Except String MeasureState :=
  directives.zipIdx.foldlM
    (measureDirective sha384 igvmCrate snpCompat paramAreas) {}

/-! ## The contexts -/

/-- The page that the walk collects for a context. -/
def contextVmsa? : IgvmDirectiveHeader → Option (UInt64 × Bytes)
  | .snpVpContext gpa compatibilityMask _ vmsa =>
      if compatibilityMask &&& snpCompat = 0 then none
      else some (gpa, vmsaPage (igvmCrate.vmsaAsBytes vmsa))
  | _ => none

end

/-! ## The measurement of a build -/

end Confos.Igvm.ContextsFirst
