import Confos.Image.RunCommand
import Confos.Library.CommandOptions
import Confos.Library.PythonText

/-!
# The command line of QEMU

`confos run` hands paths, sizes and port numbers to QEMU inside of property
lists with commas between them.  The paths are checked for commas where they
are used, and are written as text.
-/

namespace Confos.Image.Qemu

open Confos.Image.RunCommand
open Confos.Library
open Confos.Library.ByteStrings
open Confos.Library.CommandOptions

inductive QemuTier where
  | sevSnp
  | kvm
  | emulated
deriving DecidableEq, Repr

/-- The bytes of a path. -/
abbrev FilePath := Bytes

structure QemuArgs where
  tier : QemuTier
  igvm : Option FilePath
  uki : Option FilePath
  firmware : Option FilePath
  disk : FilePath
  diskFormat : String
  smp : UInt32
  memory : String
  hostData : Option (Block 32)
  cdroms : List FilePath
  portForwards : List (UInt16 × UInt16)
  scratch : Option FilePath

/-! ## Paths -/

/-- `Path::display`: a path as text, with replacements where it is none. -/
def display (path : FilePath) : String :=
  match utf8Text? path with
  | some text => text
  | none => String.ofList (PythonText.decodeReplace path)

def rejectCommaInPath (label : String) (path : FilePath) :
    Except String Unit :=
  if (display path).toList.contains ',' then
    .error s!"{label} path contains a comma, which would be misinterpreted by QEMU: {display path}"
  else
    .ok ()

def rejectCommaInOption (label : String) (path : Option FilePath) :
    Except String Unit :=
  match path with
  | some path => rejectCommaInPath label path
  | none => .ok ()

def validateCdroms (isFile : FilePath → Bool) (cdroms : List FilePath) :
    Except String Unit :=
  cdroms.forM fun path => do
    rejectCommaInPath "cdrom" path
    if isFile path then
      .ok ()
    else
      .error s!"cdrom must be an existing regular file: {display path}"

/-! ## The arguments -/

def hostDataRequiresSnp : String := "--host-data requires the SEV-SNP tier"

namespace QemuArgs

variable (self : QemuArgs)

def consoleArgs : List String :=
  ["-chardev", "stdio,id=hvc0,signal=off,mux=on", "-device",
    "virtio-serial-pci,id=virtser0", "-device",
    "virtconsole,chardev=hvc0,id=console0", "-mon",
    "chardev=hvc0,mode=readline"]

def sevGuest : String := "sev-snp-guest,id=sev0,cbitpos=51,reduced-phys-bits=1"

def sevObject : String :=
  match self.hostData with
  | none => sevGuest
  | some data =>
      sevGuest ++ ",host-data=" ++ String.ofList (base64Encode data.bytes)

def snpArgs (igvm : FilePath) : List String :=
  ["-enable-kvm", "-cpu", "EPYC-Genoa", "-machine",
    "q35,confidential-guest-support=sev0,igvm-cfg=igvm0,memory-backend=ram1,kernel-irqchip=split",
    "-object", "igvm-cfg,id=igvm0,file=" ++ display igvm, "-object",
    "memory-backend-memfd,id=ram1,size=" ++ self.memory ++ ",share=true",
    "-object", self.sevObject, "-no-reboot"]

def pflashArgs (uki firmware : FilePath) : List String :=
  ["-machine", "q35"] ++
    (if self.tier = .kvm then ["-enable-kvm"] else []) ++
    ["-drive", "if=pflash,format=raw,readonly=on,file=" ++ display firmware,
      "-kernel", display uki]

/-- The arguments that the tier decides. -/
def tierArgs : Except String (List String) :=
  match self.tier with
  | .sevSnp =>
      match self.igvm with
      | none => .error "SevSnp tier requires igvm path"
      | some igvm => .ok (self.snpArgs igvm ++ consoleArgs)
  | .kvm | .emulated =>
      if self.hostData.isSome then
        .error hostDataRequiresSnp
      else
        match self.uki, self.firmware with
        | none, _ => .error "Kvm/Emulated tier requires uki path"
        | some _, none => .error "Kvm/Emulated tier requires firmware path"
        | some uki, some firmware =>
            .ok (self.pflashArgs uki firmware ++ consoleArgs)

def diskArgs : List String :=
  ["-drive",
    "file=" ++ display self.disk ++ ",format=" ++ self.diskFormat ++
      ",if=none,id=root0,readonly=on",
    "-device", "virtio-blk-pci,drive=root0"]

def scratchArgs : Except String (List String) :=
  match self.scratch with
  | none => .ok []
  | some scratch => do
      rejectCommaInPath "scratch" scratch
      return ["-drive",
        "file=" ++ display scratch ++ ",format=raw,if=none,id=scratch0",
        "-device", "virtio-blk-pci,drive=scratch0,serial=confai-scratch"]

def cdromId (index : Nat) : String :=
  "cd" ++ toString index

def cdromArgs : List String :=
  (if self.cdroms.isEmpty then [] else ["-device", "virtio-scsi-pci,id=scsi0"]) ++
    self.cdroms.zipIdx.flatMap fun cdrom =>
      ["-drive",
        "file=" ++ display cdrom.1 ++ ",format=raw,if=none,id=" ++
          cdromId cdrom.2 ++ ",readonly=on",
        "-device", "scsi-cd,drive=" ++ cdromId cdrom.2 ++ ",bus=scsi0.0"]

def machineArgs : List String :=
  ["-smp", toString self.smp, "-m", self.memory, "-display", "none",
    "-serial", "none"]

def hostForward (forward : UInt16 × UInt16) : String :=
  "hostfwd=tcp::" ++ toString forward.1 ++ "-:" ++ toString forward.2

def networkArgs : List String :=
  if self.portForwards.isEmpty then
    []
  else
    ["-netdev",
      "user,id=net0," ++ ",".intercalate (self.portForwards.map hostForward),
      "-device", "virtio-net-pci,netdev=net0"]

def toArgs (isFile : FilePath → Bool) : Except String (List String) := do
  validateCdroms isFile self.cdroms
  rejectCommaInPath "disk" self.disk
  rejectCommaInOption "igvm" self.igvm
  rejectCommaInOption "uki" self.uki
  rejectCommaInOption "firmware" self.firmware
  let tierArgs ← self.tierArgs
  if !allowedDiskFormats.contains self.diskFormat then
    .error s!"unsupported disk format: {self.diskFormat.quote}"
  else
    let scratchArgs ← self.scratchArgs
    return tierArgs ++ self.diskArgs ++ scratchArgs ++ self.cdromArgs ++
      self.machineArgs ++ self.networkArgs

end QemuArgs

end Confos.Image.Qemu
