import Confos.Igvm.ContextsFirst

/-!
# The native platform in the SNP measurement

An image for both platforms has one more platform header, for a flat boot one
more context, and another compatibility mask on its pages.  The measurement
looks at the SNP bit of a mask only, so none of this reaches the digest.
-/

namespace Confos.Igvm.NativePlatform

open Confos.Library.ByteStrings
open Confos.Library.Fallible
open Confos.Library.HashChains
open Confos.Igvm.X86Regs
open Confos.Igvm.Directives
open Confos.Igvm.Ovmf
open Confos.Igvm.Builder
open Confos.Igvm.Builder.IgvmBuilder
open Confos.Igvm.Measure
open Confos.Igvm.Build
open Confos.Igvm.Contexts
open Confos.Igvm.ContextsFirst

/-! ## What SNP sees of a directive -/

section

variable (sha384 : Bytes → Digest) (igvmCrate : IgvmCrate)

end

/-! ## What SNP sees of a builder -/

section

variable {sha384 : Bytes → Digest} {igvmCrate : IgvmCrate}
    {config : BuildConfig}

end

end Confos.Igvm.NativePlatform
