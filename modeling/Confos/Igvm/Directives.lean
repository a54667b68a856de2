import Confos.Igvm.X86Regs
import Confos.Library.ByteStrings

/-!
# IGVM files

The headers of an IGVM file as the builder writes and the measurement reads
them.  The igvm crate itself is not part of the repository: its `IgvmFile::new`,
its serialisation and the byte layout of a VMSA are the fields of `IgvmCrate`.
-/

namespace Confos.Igvm.Directives

open Confos.Library.ByteStrings
open Confos.Igvm.X86Regs

/-- `IgvmPageDataType`: the values the source tells apart, and the rest. -/
inductive IgvmPageDataType where
  | normal
  | secrets
  | cpuidData
  | cpuidXf
  | other (value : UInt16)
deriving DecidableEq, Repr

/-- The one bit of `IgvmPageDataFlags` that the source sets or reads. -/
structure IgvmPageDataFlags where
  unmeasured : Bool := false
deriving DecidableEq, Repr

/-- The directive headers; `other` stands for every kind the source never names. -/
inductive IgvmDirectiveHeader where
  | pageData (gpa : UInt64) (compatibilityMask : UInt32)
      (flags : IgvmPageDataFlags) (dataType : IgvmPageDataType)
      (data : Bytes)
  | parameterArea (numberOfBytes : UInt64) (parameterAreaIndex : UInt32)
      (initialData : Bytes)
  | parameterInsert (parameterAreaIndex : UInt32) (gpa : UInt64)
      (compatibilityMask : UInt32)
  | memoryMap (parameterAreaIndex byteOffset : UInt32)
  | vpCount (parameterAreaIndex byteOffset : UInt32)
  | snpVpContext (gpa : UInt64) (compatibilityMask : UInt32)
      (vpIndex : UInt16) (vmsa : SevVmsa)
  | x64NativeVpContext (compatibilityMask : UInt32) (vpIndex : UInt16)
      (context : NativeContext)
  | other (kind : Nat)
deriving DecidableEq, Repr

inductive IgvmPlatformType where
  | native
  | sevSnp
  | other (value : UInt8)
deriving DecidableEq, Repr

/-- `IGVM_VHS_SUPPORTED_PLATFORM`, the one kind of platform header. -/
structure IgvmPlatformHeader where
  compatibilityMask : UInt32
  highestVtl : UInt8
  platformType : IgvmPlatformType
  platformVersion : UInt16
  sharedGpaBoundary : UInt64
deriving DecidableEq, Repr

/-- The `GuestPolicy` header, the one initialization header the builder writes. -/
structure IgvmInitializationHeader where
  policy : UInt64
  compatibilityMask : UInt32
deriving DecidableEq, Repr

structure IgvmFile where
  platforms : List IgvmPlatformHeader
  initializations : List IgvmInitializationHeader
  directives : List IgvmDirectiveHeader
deriving DecidableEq, Repr

/-- What the source calls in the igvm crate. -/
structure IgvmCrate where
  vmsaAsBytes : SevVmsa → Bytes
  newFile :
    List IgvmPlatformHeader → List IgvmInitializationHeader →
      List IgvmDirectiveHeader → Except String IgvmFile
  serialize : IgvmFile → Except String Bytes

end Confos.Igvm.Directives
