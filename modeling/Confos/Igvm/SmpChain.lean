import Confos.Igvm.ContextsFirst

/-!
# The vCPU count chain

The launch digests of one image for different vCPU counts lie on one hash
chain: each further vCPU adds the page of one application processor, which the
reset address in the firmware determines, to the end of what is measured.
-/

namespace Confos.Igvm.SmpChain

open Confos.Library.ByteStrings
open Confos.Library.Fallible
open Confos.Library.HashChains
open Confos.Igvm.X86Regs
open Confos.Igvm.Directives
open Confos.Igvm.Ovmf
open Confos.Igvm.Builder
open Confos.Igvm.Builder.IgvmBuilder
open Confos.Igvm.Measure
open Confos.Igvm.Build
open Confos.Igvm.Contexts
open Confos.Igvm.ContextsFirst

section

variable (sha384 : Bytes → Digest) (igvmCrate : IgvmCrate)

end

end Confos.Igvm.SmpChain
