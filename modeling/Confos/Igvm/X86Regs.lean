/-!
# Initial register state of the virtual processors

The register lists the builder starts a processor with, and the two contexts
made from them: the native context of an `X64NativeVpContext` directive and the
VMSA of an `SnpVpContext` directive.  A register the lists never name has no
constructor here, and a VMSA field no register sets stays zero in the crate's
byte image and has no field here.
-/

namespace Confos.Igvm.X86Regs

/-! ## Attribute words -/

/-- `SegmentAttributes`, least significant bit first. -/
structure SegmentAttributes where
  accessed : Bool := true
  rw : Bool := false
  ce : Bool := false
  code : Bool := false
  system : Bool := true
  dpl : UInt8 := 0
  present : Bool := false
  limit1619 : UInt8 := 0
  avl : Bool := false
  long : Bool := false
  db : Bool := false
  granularity : Bool := false
deriving DecidableEq, Repr

/-- One flag at its bit position. -/
def flag (bit : Bool) (position : UInt16) : UInt16 :=
  if bit then 1 <<< position else 0

/-- The attribute word the bit fields stand for. -/
def SegmentAttributes.bits (attributes : SegmentAttributes) : UInt16 :=
  flag attributes.accessed 0 ||| flag attributes.rw 1 |||
    flag attributes.ce 2 ||| flag attributes.code 3 |||
    flag attributes.system 4 ||| (attributes.dpl.toUInt16 &&& 3) <<< 5 |||
    flag attributes.present 7 |||
    (attributes.limit1619.toUInt16 &&& 0xf) <<< 8 |||
    flag attributes.avl 12 ||| flag attributes.long 13 |||
    flag attributes.db 14 ||| flag attributes.granularity 15

def SegmentAttributes.code16 : SegmentAttributes :=
  { rw := true, code := true, present := true }

def SegmentAttributes.data16 : SegmentAttributes :=
  { rw := true, code := false, present := true }

def SegmentAttributes.code32 : SegmentAttributes :=
  { rw := true, code := true, present := true, db := true,
    granularity := true }

def SegmentAttributes.data32 : SegmentAttributes :=
  { rw := true, code := false, present := true, db := true,
    granularity := true }

/-- `SegmentAttributes::from(systype & 0x0f)` with system off and present on. -/
def SegmentAttributes.systemSegment (systype : UInt16) : SegmentAttributes :=
  { accessed := systype &&& 1 != 0
    rw := systype &&& 2 != 0
    ce := systype &&& 4 != 0
    code := systype &&& 8 != 0
    system := false
    present := true }

def SegmentAttributes.tss16 : SegmentAttributes :=
  SegmentAttributes.systemSegment 0x03

def SegmentAttributes.tss3264 : SegmentAttributes :=
  SegmentAttributes.systemSegment 0x0b

/-- The `ControlRegister0` flags the initial states set. -/
structure ControlRegister0 where
  pe : Bool := false
  et : Bool := false
  ne : Bool := false
deriving DecidableEq, Repr

def ControlRegister0.bits (register : ControlRegister0) : UInt64 :=
  (if register.pe then 0x01 else 0) ||| (if register.et then 0x10 else 0) |||
    (if register.ne then 0x20 else 0)

def ControlRegister0.resetFast : ControlRegister0 :=
  { et := true }

/-- `ExtFeatureEnableReg` with only `svme` set. -/
def extFeatureEnableSvme : UInt64 :=
  0x1000

/-! ## Register lists -/

structure SegmentRegister where
  base : UInt64
  limit : UInt32
  selector : UInt16
  attributes : UInt16
deriving DecidableEq, Repr

structure TableRegister where
  base : UInt64
  limit : UInt16
deriving DecidableEq, Repr

/-- The registers the initial states set. -/
inductive X86Register where
  | cr0 (value : UInt64)
  | rip (value : UInt64)
  | cs (segment : SegmentRegister)
  | ss (segment : SegmentRegister)
  | ds (segment : SegmentRegister)
  | es (segment : SegmentRegister)
  | fs (segment : SegmentRegister)
  | gs (segment : SegmentRegister)
  | tr (segment : SegmentRegister)
  | pat (value : UInt64)
  | gdtr (table : TableRegister)
  | idtr (table : TableRegister)
deriving DecidableEq, Repr

def commonRegs : List X86Register :=
  let table : TableRegister := { base := 0, limit := 0xffff }
  [.pat 0x0007040600070406, .gdtr table, .idtr table]

/-- The nine registers before `commonRegs`, in the order of the source. -/
def segmentRegs
    (cr0 : ControlRegister0) (rip : UInt64)
    (code data task : SegmentRegister) : List X86Register :=
  [.cr0 cr0.bits, .rip rip, .cs code, .ss data, .ds data, .es data,
    .fs data, .gs data, .tr task]

/-- Real mode at `resetAddr`: the reset state of an application processor. -/
def realModeRegsAt (resetAddr : UInt32) : List X86Register :=
  segmentRegs ControlRegister0.resetFast (resetAddr &&& 0xffff).toUInt64
      { base := (resetAddr &&& 0xffff0000).toUInt64, limit := 0xffff,
        selector := 0xf000, attributes := SegmentAttributes.code16.bits }
      { base := 0, limit := 0xffff, selector := 0,
        attributes := SegmentAttributes.data16.bits }
      { base := 0, limit := 0xffff, selector := 0,
        attributes := SegmentAttributes.tss16.bits } ++
    commonRegs

/-- Flat 32-bit protected mode. -/
def flat32ModeRegs (rip : Option UInt64) : List X86Register :=
  segmentRegs { ControlRegister0.resetFast with pe := true, ne := true }
      (rip.getD 0xfffffff0)
      { base := 0, limit := 0xffffffff, selector := 0x08,
        attributes := SegmentAttributes.code32.bits }
      { base := 0, limit := 0xffffffff, selector := 0x10,
        attributes := SegmentAttributes.data32.bits }
      { base := 0, limit := 0xffff, selector := 0,
        attributes := SegmentAttributes.tss3264.bits } ++
    commonRegs

/-! ## Processor contexts -/

/-- The fields of `IgvmNativeVpContextX64` that a register list sets. -/
structure NativeContext where
  rip : UInt64 := 0
  cr0 : UInt64 := 0
  gdtrBase : UInt64 := 0
  gdtrLimit : UInt16 := 0
  idtrBase : UInt64 := 0
  idtrLimit : UInt16 := 0
  codeBase : UInt32 := 0
  codeLimit : UInt32 := 0
  codeSelector : UInt16 := 0
  codeAttributes : UInt16 := 0
  dataBase : UInt32 := 0
  dataLimit : UInt32 := 0
  dataSelector : UInt16 := 0
  dataAttributes : UInt16 := 0
  gsBase : UInt64 := 0
deriving DecidableEq, Repr

def nativeContext (regs : List X86Register) : NativeContext :=
  regs.foldl (fun ctx register =>
    match register with
    | .rip rip => { ctx with rip }
    | .cr0 cr0 => { ctx with cr0 }
    | .gdtr table => { ctx with gdtrBase := table.base, gdtrLimit := table.limit }
    | .idtr table => { ctx with idtrBase := table.base, idtrLimit := table.limit }
    | .cs segment =>
        { ctx with
          codeBase := segment.base.toUInt32
          codeLimit := segment.limit
          codeSelector := segment.selector
          codeAttributes := segment.attributes }
    | .ds segment =>
        { ctx with
          dataBase := segment.base.toUInt32
          dataLimit := segment.limit
          dataSelector := segment.selector
          dataAttributes := segment.attributes }
    | .gs segment => { ctx with gsBase := segment.base }
    | .ss _ | .es _ | .fs _ | .tr _ | .pat _ => ctx) {}

structure SevSelector where
  selector : UInt16 := 0
  attrib : UInt16 := 0
  limit : UInt32 := 0
  base : UInt64 := 0
deriving DecidableEq, Repr

structure SevFeatures where
  snp : Bool := false
  debugSwap : Bool := false
deriving DecidableEq, Repr

/-- The fields of `SevVmsa` that `vmsaContext` sets. -/
structure SevVmsa where
  es : SevSelector := {}
  cs : SevSelector := {}
  ss : SevSelector := {}
  ds : SevSelector := {}
  fs : SevSelector := {}
  gs : SevSelector := {}
  gdtr : SevSelector := {}
  idtr : SevSelector := {}
  tr : SevSelector := {}
  efer : UInt64 := 0
  cr0 : UInt64 := 0
  dr7 : UInt64 := 0
  dr6 : UInt64 := 0
  rip : UInt64 := 0
  pat : UInt64 := 0
  sevFeatures : SevFeatures := {}
  xcr0 : UInt64 := 0
  mxcsr : UInt32 := 0
  x87Fcw : UInt16 := 0
deriving DecidableEq, Repr

/-- The VMSA form drops the four limit bits in the middle of the attributes. -/
def vmsaSegment (segment : SegmentRegister) : SevSelector :=
  { base := segment.base
    limit := segment.limit
    selector := segment.selector
    attrib :=
      (segment.attributes &&& 0xff) ||| ((segment.attributes &&& 0xf000) >>> (4 : UInt16)) }

def vmsaTable (table : TableRegister) : SevSelector :=
  { base := table.base, limit := table.limit.toUInt32, selector := 0, attrib := 0 }

/-- Reset defaults, the register list over them, and SVM enabled in EFER. -/
def vmsaContext (regs : List X86Register) (features : SevFeatures) : SevVmsa :=
  let reset : SevVmsa :=
    { dr6 := 0xffff0ff0, dr7 := 0x400, xcr0 := 1, x87Fcw := 0x37f,
      mxcsr := 0x1f80, sevFeatures := features }
  let vmsa := regs.foldl (fun vmsa register =>
    match register with
    | .rip rip => { vmsa with rip }
    | .cr0 cr0 => { vmsa with cr0 }
    | .pat pat => { vmsa with pat }
    | .gdtr table => { vmsa with gdtr := vmsaTable table }
    | .idtr table => { vmsa with idtr := vmsaTable table }
    | .cs segment => { vmsa with cs := vmsaSegment segment }
    | .ss segment => { vmsa with ss := vmsaSegment segment }
    | .ds segment => { vmsa with ds := vmsaSegment segment }
    | .es segment => { vmsa with es := vmsaSegment segment }
    | .fs segment => { vmsa with fs := vmsaSegment segment }
    | .gs segment => { vmsa with gs := vmsaSegment segment }
    | .tr segment => { vmsa with tr := vmsaSegment segment }) reset
  { vmsa with efer := vmsa.efer ||| extFeatureEnableSvme }

/-- The attribute word of a 16-bit code segment is the hardware's `0x9b`. -/
example : SegmentAttributes.code16.bits = 0x9b := by decide

end Confos.Igvm.X86Regs
