import Confos.Igvm.Binding

/-!
# Images without their hand-off page

An empty blob at the area of the hand-off list clears the page of the list.
Then the image depends on the bytes of the blobs alone, not on their kinds, so
a blob can be passed off as one of another kind without a trace in the digest.
-/

namespace Confos.Igvm.LostHobs

open Confos.Library.ByteStrings
open Confos.Library.Fallible
open Confos.Igvm.Directives
open Confos.Igvm.Ovmf
open Confos.Igvm.Hob
open Confos.Igvm.Builder
open Confos.Igvm.Builder.IgvmBuilder
open Confos.Igvm.Measure
open Confos.Igvm.Build
open Confos.Igvm.PageRanges
open Confos.Igvm.Placement
open Confos.Igvm.HashedMessages
open Confos.Igvm.Binding

/-! ## What the kinds do not tell -/

/-- Blobs one after the other, each on pages of its own. -/
def layOut : Nat → List Bytes → List (Nat × Bytes)
  | _, [] => []
  | base, blob :: rest =>
      (base, blob) :: layOut (base + roundUp hobPageSize blob.length) rest

/-- Where a layout ends. -/
def layoutEnd (base : Nat) (blobs : List Bytes) : Nat :=
  blobs.foldl (fun base blob => base + roundUp hobPageSize blob.length) base

theorem layOut_concat (base : Nat) (blobs : List Bytes) (blob : Bytes) :
    layOut base (blobs ++ [blob]) =
      layOut base blobs ++ [(layoutEnd base blobs, blob)] := by
  induction blobs generalizing base with
  | nil => rfl
  | cons first blobs induction =>
      rw [List.cons_append, layOut, layOut, induction]
      rfl

/-- A list is the layout of its bytes. -/
structure IsLaidOut (list : IgvmDataList) : Prop where
  placements :
    list.data.map IgvmDataEntry.placement =
      layOut hobListBase (list.data.map (·.blob))
  base : list.base = layoutEnd hobListBase (list.data.map (·.blob))

theorem IsLaidOut.addBlob
    {list : IgvmDataList} (laidOut : IsLaidOut list)
    (blob : Option Bytes) (dataType : IgvmDataType) (measured : Bool) :
    IsLaidOut (addBlob blob dataType measured list) := by
  cases blob with
  | none => exact laidOut
  | some blob =>
      constructor
      · rw [Build.addBlob, IgvmDataList.add, List.map_append,
          List.map_append, List.map_singleton, List.map_singleton,
          layOut_concat, laidOut.placements, ← laidOut.base]
        rfl
      · rw [Build.addBlob, IgvmDataList.add, List.map_append,
          List.map_singleton, layoutEnd, List.foldl_append]
        exact congrArg (· + roundUp hobPageSize blob.length) laidOut.base

section

variable (sha384 : Bytes → Digest) (igvmCrate : IgvmCrate)

end

/-! ## Three images -/

end Confos.Igvm.LostHobs
