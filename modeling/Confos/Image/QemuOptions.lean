import Confos.Image.Qemu

/-!
# What QEMU reads

QEMU splits the value of an option such as `-drive` at its commas.  The
property lists that are meant are written down with the paths as they are; the
arguments hold the same lists with the paths as text.
-/

namespace Confos.Image.Qemu

open Confos.Image.RunCommand
open Confos.Library
open Confos.Library.ByteStrings
open Confos.Library.CommandOptions
open Confos.Library.Fallible

/-! ## What is meant -/

inductive PropertyValue where
  | path (file : FilePath)
  | text (word : String)

namespace PropertyValue

/-- A path is meant as it is, byte by byte. -/
def bytes : PropertyValue → Bytes
  | path file => file
  | text word => utf8Bytes word

def written : PropertyValue → String
  | path file => display file
  | text word => word

@[simp]
theorem written_path (file : FilePath) :
    (path file).written = display file := rfl

@[simp]
theorem written_text (word : String) : (text word).written = word := rfl

end PropertyValue

namespace QemuArgs

variable (self : QemuArgs)

open PropertyValue

def consoleOptions : List (PropertyOption PropertyValue) :=
  [("-chardev",
      [("stdio", none), ("id", some (text "hvc0")),
        ("signal", some (text "off")), ("mux", some (text "on"))]),
    ("-device", [("virtio-serial-pci", none), ("id", some (text "virtser0"))]),
    ("-device",
      [("virtconsole", none), ("chardev", some (text "hvc0")),
        ("id", some (text "console0"))]),
    ("-mon",
      [("chardev", some (text "hvc0")), ("mode", some (text "readline"))])]

def sevProperties : List (String × Option PropertyValue) :=
  [("sev-snp-guest", none), ("id", some (text "sev0")),
    ("cbitpos", some (text "51")), ("reduced-phys-bits", some (text "1"))] ++
    self.hostData.toList.map fun data =>
      ("host-data", some (text (String.ofList (base64Encode data.bytes))))

def snpOptions (igvm : FilePath) : List (PropertyOption PropertyValue) :=
  [("-machine",
      [("q35", none), ("confidential-guest-support", some (text "sev0")),
        ("igvm-cfg", some (text "igvm0")),
        ("memory-backend", some (text "ram1")),
        ("kernel-irqchip", some (text "split"))]),
    ("-object",
      [("igvm-cfg", none), ("id", some (text "igvm0")),
        ("file", some (path igvm))]),
    ("-object",
      [("memory-backend-memfd", none), ("id", some (text "ram1")),
        ("size", some (text self.memory)), ("share", some (text "true"))]),
    ("-object", self.sevProperties)]

def pflashOptions (firmware : FilePath) : List (PropertyOption PropertyValue) :=
  [("-machine", [("q35", none)]),
    ("-drive",
      [("if", some (text "pflash")), ("format", some (text "raw")),
        ("readonly", some (text "on")), ("file", some (path firmware))])]

def tierOptions : List (PropertyOption PropertyValue) :=
  (match self.tier with
    | .sevSnp => self.igvm.toList.flatMap self.snpOptions
    | .kvm | .emulated => self.firmware.toList.flatMap pflashOptions) ++
    consoleOptions

def diskOptions : List (PropertyOption PropertyValue) :=
  [("-drive",
      [("file", some (path self.disk)), ("format", some (text self.diskFormat)),
        ("if", some (text "none")), ("id", some (text "root0")),
        ("readonly", some (text "on"))]),
    ("-device", [("virtio-blk-pci", none), ("drive", some (text "root0"))])]

def scratchOptions (scratch : FilePath) : List (PropertyOption PropertyValue) :=
  [("-drive",
      [("file", some (path scratch)), ("format", some (text "raw")),
        ("if", some (text "none")), ("id", some (text "scratch0"))]),
    ("-device",
      [("virtio-blk-pci", none), ("drive", some (text "scratch0")),
        ("serial", some (text "confai-scratch"))])]

def cdromOptions (cdrom : FilePath × Nat) :
    List (PropertyOption PropertyValue) :=
  [("-drive",
      [("file", some (path cdrom.1)), ("format", some (text "raw")),
        ("if", some (text "none")), ("id", some (text (cdromId cdrom.2))),
        ("readonly", some (text "on"))]),
    ("-device",
      [("scsi-cd", none), ("drive", some (text (cdromId cdrom.2))),
        ("bus", some (text "scsi0.0"))])]

def controllerOptions : List (PropertyOption PropertyValue) :=
  [("-device", [("virtio-scsi-pci", none), ("id", some (text "scsi0"))])]

def cdromsOptions : List (PropertyOption PropertyValue) :=
  (if self.cdroms.isEmpty then [] else controllerOptions) ++
    self.cdroms.zipIdx.flatMap cdromOptions

def forwardProperty (forward : UInt16 × UInt16) :
    String × Option PropertyValue :=
  ("hostfwd",
    some
      (text ("tcp::" ++ toString forward.1 ++ "-:" ++ toString forward.2)))

def networkOptions : List (PropertyOption PropertyValue) :=
  if self.portForwards.isEmpty then
    []
  else
    [("-netdev",
        [("user", none), ("id", some (text "net0"))] ++
          self.portForwards.map forwardProperty),
      ("-device", [("virtio-net-pci", none), ("netdev", some (text "net0"))])]

/-- The property lists that are meant, in their order. -/
def intendedOptions : List (PropertyOption PropertyValue) :=
  self.tierOptions ++ self.diskOptions ++
    self.scratch.toList.flatMap scratchOptions ++ self.cdromsOptions ++
    self.networkOptions

/-- The path that the tier puts into a property list. -/
def tierPaths : List FilePath :=
  match self.tier with
  | .sevSnp => self.igvm.toList
  | .kvm | .emulated => self.firmware.toList

/-- The paths that go into property lists. -/
def propertyPaths : List FilePath :=
  self.tierPaths ++ self.disk :: (self.scratch.toList ++ self.cdroms)

end QemuArgs

/-! ## What QEMU reads -/

def qemuFlags : List String := ["-enable-kvm", "-no-reboot"]

/-- The options whose values are property lists. -/
def propertyNames : List String :=
  ["-object", "-drive", "-device", "-netdev", "-machine", "-chardev", "-mon"]

/-- The property lists that QEMU finds among its arguments. -/
def parsedOptions (args : List String) : List (PropertyOption String) :=
  readPropertyOptions qemuFlags propertyNames args

/-- The arguments hold the property lists of these options. -/
def Intends (args : List String)
    (options : List (PropertyOption PropertyValue)) : Prop :=
  Writes qemuFlags propertyNames args (mapValues PropertyValue.written options)

theorem Intends.append
    {first second : List String}
    {options others : List (PropertyOption PropertyValue)}
    (intends : Intends first options) (intendsMore : Intends second others) :
    Intends (first ++ second) (options ++ others) := by
  rw [Intends, mapValues, List.map_append]
  exact Writes.append intends intendsMore

theorem Intends.flatMap
    {α : Type} {items : List α} {args : α → List String}
    {options : α → List (PropertyOption PropertyValue)}
    (intends : ∀ item ∈ items, Intends (args item) (options item)) :
    Intends (items.flatMap args) (items.flatMap options) := by
  induction items with
  | nil => exact Writes.nil
  | cons item items induction =>
      rw [List.forall_mem_cons] at intends
      rw [List.flatMap_cons, List.flatMap_cons]
      exact intends.1.append (induction intends.2)

theorem Intends.properties
    {name value : String} {properties : List (String × Option PropertyValue)}
    {args : List String} {options : List (PropertyOption PropertyValue)}
    (noFlag : qemuFlags.contains name = false)
    (named : propertyNames.contains name = true)
    (spells : Spells PropertyValue.written value properties)
    (rest : Intends args options) :
    Intends (name :: value :: args) ((name, properties) :: options) := by
  have writes :
      Writes qemuFlags propertyNames (name :: value :: args)
        ((name, readProperties value) ::
          mapValues PropertyValue.written options) :=
    .properties noFlag named rest
  rw [spells.readProperties_eq] at writes
  exact writes

theorem notMem_of_rejectCommaInPath
    {label : String} {path : FilePath}
    (checked : rejectCommaInPath label path = .ok ()) :
    ',' ∉ (display path).toList := by
  rw [rejectCommaInPath] at checked
  split at checked
  · cases checked
  · next absent => simpa using absent

theorem notMem_of_rejectCommaInOption
    {label : String} {path : Option FilePath}
    (checked : rejectCommaInOption label path = .ok ()) :
    ∀ file, path = some file → ',' ∉ (display file).toList := by
  rintro file rfl
  exact notMem_of_rejectCommaInPath checked

theorem notMem_of_validateCdroms
    {isFile : FilePath → Bool} {cdroms : List FilePath}
    (checked : validateCdroms isFile cdroms = .ok ()) :
    ∀ cdrom ∈ cdroms, ',' ∉ (display cdrom).toList := by
  intro cdrom member
  rcases bind_eq_ok.1 (forM_eq_ok.1 checked cdrom member) with ⟨_, comma, -⟩
  exact notMem_of_rejectCommaInPath comma

theorem notMem_of_validateMemory
    {memory : String} (valid : validateMemory memory = .ok ()) :
    ',' ∉ memory.toList := by
  rw [validateMemory_eq_ok_iff, isMemorySize] at valid
  split at valid
  · cases valid
  · next last ending =>
      rcases List.getLast?_eq_some_iff.1 ending with ⟨digits, whole⟩
      rw [whole, List.dropLast_concat] at valid
      rw [whole]
      intro member
      split at valid
      · next suffix =>
          rcases List.mem_append.1 member with inside | same
          · exact absurd (List.all_eq_true.1 valid _ inside) (by decide)
          · rw [← List.mem_singleton.1 same] at suffix
            exact absurd suffix (by decide)
      · exact absurd (List.all_eq_true.1 valid _ member) (by decide)

theorem notMem_of_allowed
    {format : String} (allowed : allowedDiskFormats.contains format = true) :
    ',' ∉ format.toList := by
  have formats : ∀ format ∈ allowedDiskFormats, ',' ∉ format.toList := by
    decide
  exact formats format (List.contains_iff_mem.1 allowed)

namespace QemuArgs

variable {self : QemuArgs}

theorem intends_consoleArgs : Intends consoleArgs consoleOptions := by
  rw [consoleArgs, consoleOptions]
  apply Intends.properties (by decide) (by decide)
  · constructor <;> simp
  apply Intends.properties (by decide) (by decide)
  · constructor <;> simp
  apply Intends.properties (by decide) (by decide)
  · constructor <;> simp
  apply Intends.properties (by decide) (by decide)
  · constructor <;> simp
  exact Writes.nil

theorem intends_diskArgs
    (disk : ',' ∉ (display self.disk).toList)
    (format : ',' ∉ self.diskFormat.toList) :
    Intends self.diskArgs self.diskOptions := by
  rw [diskArgs, diskOptions]
  apply Intends.properties (by decide) (by decide)
  · constructor <;> simp [disk, format]
  apply Intends.properties (by decide) (by decide)
  · constructor <;> simp
  exact Writes.nil

theorem comma_notMem_base64Encode (data : Bytes) :
    ',' ∉ base64Encode data := by
  intro member
  refine (mem_base64Encode member).elim (fun letter => ?_) (fun same => ?_)
  · have other : ',' ∉ base64Alphabet := by decide +kernel
    exact other letter
  · exact absurd same (by decide)

theorem spells_sevObject :
    Spells PropertyValue.written self.sevObject self.sevProperties := by
  rw [sevObject, sevProperties]
  cases self.hostData with
  | none => constructor <;> simp [sevGuest]
  | some data =>
      have comma := comma_notMem_base64Encode data.bytes
      constructor <;> simp [sevGuest, comma]

theorem intends_snpArgs
    {igvm : FilePath} (comma : ',' ∉ (display igvm).toList)
    (memory : ',' ∉ self.memory.toList) :
    Intends (self.snpArgs igvm) (self.snpOptions igvm) := by
  rw [snpArgs, snpOptions]
  refine .flag (by decide) (by decide) (.other _ (by decide) (by decide) ?_)
  apply Intends.properties (by decide) (by decide)
  · constructor <;> simp
  apply Intends.properties (by decide) (by decide)
  · constructor <;> simp [comma]
  apply Intends.properties (by decide) (by decide)
  · constructor <;> simp [memory]
  apply Intends.properties (by decide) (by decide) spells_sevObject
  exact .flag (by decide) (by decide) .nil

theorem intends_pflashArgs
    {firmware : FilePath} (comma : ',' ∉ (display firmware).toList)
    (uki : FilePath) :
    Intends (self.pflashArgs uki firmware) (pflashOptions firmware) := by
  have drive :
      Intends
        ["-drive", "if=pflash,format=raw,readonly=on,file=" ++ display firmware,
          "-kernel", display uki]
        [("-drive",
          [("if", some (.text "pflash")), ("format", some (.text "raw")),
            ("readonly", some (.text "on")),
            ("file", some (.path firmware))])] := by
    apply Intends.properties (by decide) (by decide)
    · constructor <;> simp [comma]
    exact .other _ (by decide) (by decide) .nil
  have enable :
      Intends (if self.tier = .kvm then ["-enable-kvm"] else []) [] := by
    split
    · exact .flag (by decide) (by decide) .nil
    · exact .nil
  rw [pflashArgs, pflashOptions, List.append_assoc]
  apply Intends.properties (by decide) (by decide)
  · constructor <;> simp
  exact enable.append drive

theorem intends_tierArgs
    (igvm : ∀ igvm, self.igvm = some igvm → ',' ∉ (display igvm).toList)
    (firmware :
      ∀ firmware, self.firmware = some firmware →
        ',' ∉ (display firmware).toList)
    (memory : ',' ∉ self.memory.toList)
    {args : List String} (done : self.tierArgs = .ok args) :
    Intends args self.tierOptions := by
  rw [tierArgs.eq_def] at done
  rw [tierOptions.eq_def]
  cases tier : self.tier with
  | sevSnp =>
      rw [tier] at done
      dsimp only at done ⊢
      cases found : self.igvm with
      | none =>
          rw [found] at done
          cases done
      | some path =>
          rw [found] at done
          cases done
          rw [Option.toList_some, List.flatMap_singleton]
          exact (intends_snpArgs (igvm path found) memory).append
            intends_consoleArgs
  | _ =>
      rw [tier] at done
      dsimp only at done ⊢
      split at done
      · cases done
      · split at done
        · cases done
        · cases done
        · next uki path _ found =>
            cases done
            rw [found, Option.toList_some, List.flatMap_singleton]
            exact (intends_pflashArgs (firmware path found) uki).append
              intends_consoleArgs

theorem intends_scratchArgs
    {args : List String} (done : self.scratchArgs = .ok args) :
    Intends args (self.scratch.toList.flatMap scratchOptions) := by
  rw [scratchArgs.eq_def] at done
  split at done
  · next absent =>
      cases done
      rw [absent]
      exact Writes.nil
  · next scratch found =>
      rcases bind_eq_ok.1 done with ⟨_, checked, written⟩
      cases written
      rw [found, Option.toList_some, List.flatMap_singleton, scratchOptions]
      have comma := notMem_of_rejectCommaInPath checked
      apply Intends.properties (by decide) (by decide)
      · constructor <;> simp [comma]
      apply Intends.properties (by decide) (by decide)
      · constructor <;> simp
      exact Writes.nil

theorem comma_notMem_toDigits (number : Nat) :
    ',' ∉ Nat.toDigits 10 number := by
  intro member
  have digit := Nat.isDigit_of_mem_toDigits (by decide) (by decide) member
  exact absurd digit (by decide)

theorem comma_notMem_cdromId (index : Nat) :
    ',' ∉ (cdromId index).toList := by
  simp [cdromId, comma_notMem_toDigits]

theorem intends_cdromArgs
    (commas : ∀ cdrom ∈ self.cdroms, ',' ∉ (display cdrom).toList) :
    Intends self.cdromArgs self.cdromsOptions := by
  rw [cdromArgs, cdromsOptions]
  apply Intends.append
  · split
    · exact Writes.nil
    · apply Intends.properties (by decide) (by decide)
      · constructor <;> simp
      exact Writes.nil
  · apply Intends.flatMap
    rintro ⟨cdrom, index⟩ member
    have comma := commas cdrom (List.fst_mem_of_mem_zipIdx member)
    have identifier := comma_notMem_cdromId index
    rw [cdromOptions]
    apply Intends.properties (by decide) (by decide)
    · constructor <;> simp [comma, identifier]
    apply Intends.properties (by decide) (by decide)
    · constructor <;> simp [identifier]
    exact Writes.nil

theorem comma_notMem_port (port : UInt16) : ',' ∉ (toString port).toList := by
  rw [show toString port = Nat.repr port.toNat from rfl, Nat.toList_repr]
  exact comma_notMem_toDigits port.toNat

theorem text_forwardProperty (forward : UInt16 × UInt16) :
    Property.text
        ((forwardProperty forward).1,
          (forwardProperty forward).2.map PropertyValue.written) =
      hostForward forward := by
  rw [← String.toList_inj]
  simp [forwardProperty, hostForward]

theorem map_text_forwards (forwards : List (UInt16 × UInt16)) :
    (mapProperties PropertyValue.written (forwards.map forwardProperty)).map
        Property.text =
      forwards.map hostForward := by
  rw [mapProperties, List.map_map, List.map_map]
  exact List.map_congr_left fun forward _ => text_forwardProperty forward

theorem spells_hostForwards
    {first : UInt16 × UInt16} {forwards : List (UInt16 × UInt16)} :
    Spells PropertyValue.written
      ("user,id=net0," ++
        ",".intercalate ((first :: forwards).map hostForward))
      ([("user", none), ("id", some (.text "net0"))] ++
        (first :: forwards).map forwardProperty) := by
  constructor
  · rw [formatProperties, ← map_text_forwards]
    simp
  · simp
  · simp [forwardProperty]
  · intro value member
    rw [List.filterMap_append, List.mem_append] at member
    rcases member with fixed | forwarded
    · have same : value = .text "net0" := by simpa using fixed
      simp [same]
    · rcases List.mem_filterMap.1 forwarded with ⟨property, inside, found⟩
      rcases List.mem_map.1 inside with ⟨forward, -, rfl⟩
      cases found
      simp [comma_notMem_port]

theorem intends_networkArgs : Intends self.networkArgs self.networkOptions := by
  rw [networkArgs, networkOptions]
  cases self.portForwards with
  | nil => exact Writes.nil
  | cons first forwards =>
      apply Intends.properties (by decide) (by decide) spells_hostForwards
      apply Intends.properties (by decide) (by decide)
      · constructor <;> simp
      exact Writes.nil

theorem intends_machineArgs : Intends self.machineArgs [] := by
  rw [machineArgs]
  refine .other _ (by decide) (by decide) (.other _ (by decide) (by decide) ?_)
  refine .other _ (by decide) (by decide) (.other _ (by decide) (by decide) ?_)
  exact Writes.nil

/-- The arguments hold the property lists that are meant. -/
theorem intends_toArgs
    {isFile : FilePath → Bool} {args : List String}
    (memory : validateMemory self.memory = .ok ())
    (done : self.toArgs isFile = .ok args) :
    Intends args self.intendedOptions := by
  rcases bind_eq_ok.1 done with ⟨_, cdroms, done⟩
  rcases bind_eq_ok.1 done with ⟨_, disk, done⟩
  rcases bind_eq_ok.1 done with ⟨_, igvm, done⟩
  rcases bind_eq_ok.1 done with ⟨_, -, done⟩
  rcases bind_eq_ok.1 done with ⟨_, firmware, done⟩
  rcases bind_eq_ok.1 done with ⟨tierArgs, tier, done⟩
  split at done
  · cases done
  · next allowed =>
      rcases bind_eq_ok.1 done with ⟨scratchArgs, scratch, done⟩
      cases done
      have format : ',' ∉ self.diskFormat.toList :=
        notMem_of_allowed (by simpa using allowed)
      have tierPart :=
        intends_tierArgs (notMem_of_rejectCommaInOption igvm)
          (notMem_of_rejectCommaInOption firmware)
          (notMem_of_validateMemory memory) tier
      have diskPart :=
        intends_diskArgs (notMem_of_rejectCommaInPath disk) format
      have scratchPart := intends_scratchArgs scratch
      have cdromPart := intends_cdromArgs (notMem_of_validateCdroms cdroms)
      have machinePart := @intends_machineArgs self
      have networkPart := @intends_networkArgs self
      have drives :=
        ((tierPart.append diskPart).append scratchPart).append cdromPart
      have rest := (drives.append machinePart).append networkPart
      rw [List.append_nil] at rest
      exact rest

theorem parsedOptions_toArgs
    {isFile : FilePath → Bool} {args : List String}
    (memory : validateMemory self.memory = .ok ())
    (done : self.toArgs isFile = .ok args) :
    parsedOptions args = mapValues PropertyValue.written self.intendedOptions :=
  readPropertyOptions_of_writes (intends_toArgs memory done)

end QemuArgs

end Confos.Image.Qemu
