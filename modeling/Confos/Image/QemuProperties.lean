import Confos.Image.QemuOptions

/-!
# Nothing is injected into a property list

Whatever the paths, the ports and the host data, QEMU finds the keys that were
meant, and every drive is attached once.  A path is found as it was given when
it is valid UTF-8; any other path is found with replacements in it, and names
a different file.
-/

namespace Confos.Image.Qemu

open Confos.Image.RunCommand
open Confos.Library
open Confos.Library.ByteStrings
open Confos.Library.CommandOptions
open Confos.Library.Fallible
open Confos.Library.Text (toDigits_injective)

/-! ## The drives -/

/-- The drives that are given an identifier. -/
def declaredDrives (options : List (PropertyOption String)) : List String :=
  valuesOf "-drive" "id" options

/-- The drives that devices name. -/
def attachedDrives (options : List (PropertyOption String)) : List String :=
  valuesOf "-device" "drive" options

namespace QemuArgs

variable {self : QemuArgs}

variable (self) in
/-- The disk of the root, the scratch disk and the CDs. -/
def driveNames : List String :=
  "root0" ::
    ((self.scratch.toList.map fun _ => "scratch0") ++
      (List.range self.cdroms.length).map cdromId)

theorem map_zipIdx_cdroms :
    (self.cdroms.zipIdx.map fun cdrom =>
        PropertyValue.text (cdromId cdrom.2)) =
      ((List.range self.cdroms.length).map cdromId).map PropertyValue.text := by
  rw [List.map_map, List.range_eq_range', ← List.zipIdx_map_snd, List.map_map]
  rfl

/-- A key that only the drives have is found once for each of them. -/
theorem valuesOf_intendedOptions
    {name key : String} (tier : valuesOf name key self.tierOptions = [])
    (disk : valuesOf name key self.diskOptions = [.text "root0"])
    (scratch :
      ∀ scratch,
        valuesOf name key (scratchOptions scratch) = [.text "scratch0"])
    (controller : valuesOf name key controllerOptions = [])
    (cdrom :
      ∀ cdrom,
        valuesOf name key (cdromOptions cdrom) = [.text (cdromId cdrom.2)])
    (network : valuesOf name key self.networkOptions = []) :
    valuesOf name key self.intendedOptions =
      self.driveNames.map PropertyValue.text := by
  have controllers :
      valuesOf name key
          (if self.cdroms.isEmpty then [] else controllerOptions) =
        [] := by
    split
    · rfl
    · exact controller
  rw [intendedOptions, valuesOf_append, valuesOf_append, valuesOf_append,
    valuesOf_append, tier, disk, network, cdromsOptions, valuesOf_append,
    controllers, valuesOf_flatMap, valuesOf_flatMap, driveNames]
  simp only [scratch, cdrom, ← List.map_eq_flatMap, map_zipIdx_cdroms]
  simp

theorem valuesOf_drive_id :
    valuesOf "-drive" "id" self.intendedOptions =
      self.driveNames.map PropertyValue.text := by
  apply valuesOf_intendedOptions
  · rw [tierOptions, valuesOf_append]
    cases self.tier <;> cases self.igvm <;> cases self.firmware <;> rfl
  · rfl
  · exact fun scratch => rfl
  · rfl
  · exact fun cdrom => rfl
  · rw [networkOptions]
    split <;> rfl

theorem valuesOf_device_drive :
    valuesOf "-device" "drive" self.intendedOptions =
      self.driveNames.map PropertyValue.text := by
  apply valuesOf_intendedOptions
  · rw [tierOptions, valuesOf_append]
    cases self.tier <;> cases self.igvm <;> cases self.firmware <;> rfl
  · rfl
  · exact fun scratch => rfl
  · rfl
  · exact fun cdrom => rfl
  · rw [networkOptions]
    split <;> rfl

theorem cdromId_injective : Function.Injective cdromId := by
  intro left right same
  have digits : Nat.toDigits 10 left = Nat.toDigits 10 right := by
    simpa [cdromId] using congrArg String.toList same
  exact toDigits_injective digits

theorem driveNames_nodup : self.driveNames.Nodup := by
  have cdroms : ((List.range self.cdroms.length).map cdromId).Nodup :=
    List.nodup_range.map cdromId_injective
  have outside {name : String} (other : name.toList.head? ≠ some 'c') :
      name ∉ (List.range self.cdroms.length).map cdromId := by
    intro member
    rcases List.mem_map.1 member with ⟨index, -, rfl⟩
    exact other (by simp [cdromId])
  have root := outside (show "root0".toList.head? ≠ some 'c' by decide)
  have scratch := outside (show "scratch0".toList.head? ≠ some 'c' by decide)
  rw [driveNames]
  cases self.scratch with
  | none =>
      rw [Option.toList_none, List.map_nil, List.nil_append, List.nodup_cons]
      exact ⟨root, cdroms⟩
  | some _ =>
      rw [Option.toList_some, List.map_singleton, List.singleton_append,
        List.nodup_cons, List.nodup_cons, List.mem_cons, not_or]
      exact ⟨⟨by decide, root⟩, scratch, cdroms⟩

end QemuArgs

/-- QEMU finds what is meant in the property lists, every drive is attached
once, and the root disk comes first. -/
structure NoInjection (launched : QemuArgs) (args : List String) : Prop where
  intended :
    mapValues utf8Bytes (parsedOptions args) =
      mapValues PropertyValue.bytes launched.intendedOptions
  distinct : (declaredDrives (parsedOptions args)).Nodup
  declared :
    ∀ drive ∈ attachedDrives (parsedOptions args),
      (declaredDrives (parsedOptions args)).count drive = 1
  once : (attachedDrives (parsedOptions args)).Nodup
  rootFirst : (attachedDrives (parsedOptions args)).head? = some "root0"

namespace QemuArgs

variable {self : QemuArgs}

theorem declaredDrives_toArgs
    {isFile : FilePath → Bool} {args : List String}
    (memory : validateMemory self.memory = .ok ())
    (done : self.toArgs isFile = .ok args) :
    declaredDrives (parsedOptions args) = self.driveNames := by
  rw [declaredDrives, parsedOptions_toArgs memory done, valuesOf_mapValues,
    valuesOf_drive_id, List.map_map]
  exact List.map_id self.driveNames

theorem attachedDrives_toArgs
    {isFile : FilePath → Bool} {args : List String}
    (memory : validateMemory self.memory = .ok ())
    (done : self.toArgs isFile = .ok args) :
    attachedDrives (parsedOptions args) = self.driveNames := by
  rw [attachedDrives, parsedOptions_toArgs memory done, valuesOf_mapValues,
    valuesOf_device_drive, List.map_map]
  exact List.map_id self.driveNames

end QemuArgs

/-! ## Whole values -/

/-- A value that is written as it is meant. -/
def IsWhole (value : PropertyValue) : Prop :=
  utf8Bytes value.written = value.bytes

@[simp]
theorem isWhole_text (word : String) : IsWhole (.text word) := rfl

/-- A path is whole when it is text, and only then. -/
@[simp]
theorem isWhole_path_iff {file : FilePath} :
    IsWhole (.path file) ↔ (utf8Text? file).isSome = true := by
  change utf8Bytes (display file) = file ↔ _
  constructor
  · intro same
    rw [← same, utf8Text?_utf8Bytes]
    rfl
  · intro valid
    rcases Option.isSome_iff_exists.1 valid with ⟨text, found⟩
    rw [display, found]
    exact utf8Bytes_of_utf8Text?_eq_some found

def AllWhole (options : List (PropertyOption PropertyValue)) : Prop :=
  ∀ value ∈ valuesIn options, IsWhole value

theorem allWhole_append_iff
    {first second : List (PropertyOption PropertyValue)} :
    AllWhole (first ++ second) ↔ AllWhole first ∧ AllWhole second := by
  rw [AllWhole, valuesIn_append, List.forall_mem_append]
  rfl

theorem allWhole_flatMap_iff
    {α : Type} {items : List α}
    {options : α → List (PropertyOption PropertyValue)} :
    AllWhole (items.flatMap options) ↔
      ∀ item ∈ items, AllWhole (options item) := by
  induction items with
  | nil => simp [AllWhole, valuesIn]
  | cons item items induction =>
      rw [List.flatMap_cons, allWhole_append_iff, induction,
        List.forall_mem_cons]

namespace QemuArgs

variable {self : QemuArgs}

theorem allWhole_snpOptions_iff {igvm : FilePath} :
    AllWhole (self.snpOptions igvm) ↔ (utf8Text? igvm).isSome = true := by
  rw [AllWhole, snpOptions, sevProperties]
  cases self.hostData <;> simp [valuesIn]

theorem allWhole_pflashOptions_iff {firmware : FilePath} :
    AllWhole (pflashOptions firmware) ↔
      (utf8Text? firmware).isSome = true := by
  simp [AllWhole, valuesIn, pflashOptions]

theorem allWhole_consoleOptions : AllWhole consoleOptions := by
  simp [AllWhole, valuesIn, consoleOptions]

theorem allWhole_diskOptions_iff :
    AllWhole self.diskOptions ↔ (utf8Text? self.disk).isSome = true := by
  simp [AllWhole, valuesIn, diskOptions]

theorem allWhole_scratchOptions_iff {scratch : FilePath} :
    AllWhole (scratchOptions scratch) ↔
      (utf8Text? scratch).isSome = true := by
  simp [AllWhole, valuesIn, scratchOptions]

theorem allWhole_cdromOptions_iff {cdrom : FilePath × Nat} :
    AllWhole (cdromOptions cdrom) ↔ (utf8Text? cdrom.1).isSome = true := by
  simp [AllWhole, valuesIn, cdromOptions]

theorem allWhole_cdromsOptions_iff :
    AllWhole self.cdromsOptions ↔
      ∀ cdrom ∈ self.cdroms, (utf8Text? cdrom).isSome = true := by
  have controller :
      AllWhole (if self.cdroms.isEmpty then [] else controllerOptions) := by
    split <;> simp [AllWhole, valuesIn, controllerOptions]
  rw [cdromsOptions, allWhole_append_iff, and_iff_right controller,
    allWhole_flatMap_iff]
  simp only [allWhole_cdromOptions_iff]
  constructor
  · intro whole cdrom member
    rcases List.getElem?_of_mem member with ⟨index, found⟩
    exact whole (cdrom, index) (List.mk_mem_zipIdx_iff_getElem?.2 found)
  · intro whole cdrom member
    exact whole cdrom.1 (List.fst_mem_of_mem_zipIdx member)

theorem allWhole_networkOptions : AllWhole self.networkOptions := by
  have values (value : PropertyValue) :
      (∃ host guest,
          (host, guest) ∈ self.portForwards ∧
            (forwardProperty (host, guest)).2 = some value) ∨
          value = .text "net0" →
        IsWhole value := by
    rintro (⟨host, guest, -, ⟨⟩⟩ | rfl)
    · exact isWhole_text _
    · exact isWhole_text _
  rw [networkOptions]
  split
  · simp [AllWhole, valuesIn]
  · simpa [AllWhole, valuesIn] using values

theorem allWhole_tierOptions_iff :
    AllWhole self.tierOptions ↔
      ∀ path ∈ self.tierPaths, (utf8Text? path).isSome = true := by
  rw [tierOptions.eq_def, tierPaths.eq_def, allWhole_append_iff,
    and_iff_left allWhole_consoleOptions]
  cases self.tier <;>
    simp only [allWhole_flatMap_iff, allWhole_snpOptions_iff,
      allWhole_pflashOptions_iff]

theorem allWhole_intendedOptions_iff :
    AllWhole self.intendedOptions ↔
      ∀ path ∈ self.propertyPaths, (utf8Text? path).isSome = true := by
  rw [intendedOptions, propertyPaths, List.forall_mem_append,
    List.forall_mem_cons, List.forall_mem_append]
  simp only [allWhole_append_iff, allWhole_flatMap_iff,
    allWhole_tierOptions_iff, allWhole_diskOptions_iff,
    allWhole_scratchOptions_iff, allWhole_cdromsOptions_iff,
    and_iff_left allWhole_networkOptions, and_assoc]

/-- What QEMU reads is what is meant when every value is whole. -/
theorem parsedOptions_eq_iff
    {isFile : FilePath → Bool} {args : List String}
    (memory : validateMemory self.memory = .ok ())
    (done : self.toArgs isFile = .ok args) :
    mapValues utf8Bytes (parsedOptions args) =
        mapValues PropertyValue.bytes self.intendedOptions ↔
      ∀ path ∈ self.propertyPaths, (utf8Text? path).isSome = true := by
  rw [parsedOptions_toArgs memory done, mapValues_mapValues, mapValues_eq_iff,
    ← allWhole_intendedOptions_iff]
  rfl

/-- Nothing is injected, and every path is whole, exactly when the paths that
go into property lists are valid UTF-8. -/
theorem noInjection_iff
    {isFile : FilePath → Bool} {args : List String}
    (memory : validateMemory self.memory = .ok ())
    (done : self.toArgs isFile = .ok args) :
    NoInjection self args ↔
      ∀ path ∈ self.propertyPaths, (utf8Text? path).isSome = true := by
  have declared := declaredDrives_toArgs memory done
  have attached := attachedDrives_toArgs memory done
  constructor
  · intro none
    exact (parsedOptions_eq_iff memory done).1 none.intended
  · intro valid
    refine ⟨(parsedOptions_eq_iff memory done).2 valid, ?_, ?_, ?_, ?_⟩
    · rw [declared]
      exact driveNames_nodup
    · intro drive member
      rw [attached] at member
      rw [declared]
      exact List.count_eq_one_of_mem driveNames_nodup member
    · rw [attached]
      exact driveNames_nodup
    · rw [attached]
      rfl

end QemuArgs

/-- A guest with a scratch disk, two CDs and a forwarded port. -/
def sampleArgs (disk : FilePath) : QemuArgs where
  tier := .sevSnp
  igvm := some (utf8Bytes "guest.igvm")
  uki := none
  firmware := none
  disk := disk
  diskFormat := "qcow2"
  smp := 2
  memory := "4G"
  hostData := some (Block.zero 32)
  cdroms := [utf8Bytes "seed.iso", utf8Bytes "tools.iso"]
  portForwards := [(2222, 22), (8443, 443)]
  scratch := some (utf8Bytes "scratch.raw")

def plainDisk : FilePath := utf8Bytes "disk.qcow2"

theorem noInjection_iff_plainDisk :
    ∃ args,
      (sampleArgs plainDisk).toArgs (fun _ => true) = .ok args ∧
        NoInjection (sampleArgs plainDisk) args := by
  have succeeded :
      ((sampleArgs plainDisk).toArgs fun _ => true).isOk = true := by
    decide
  rcases exists_eq_ok_of_isOk succeeded with ⟨args, done⟩
  have valid :
      ∀ path ∈ (sampleArgs plainDisk).propertyPaths,
        (utf8Text? path).isSome = true := by
    decide
  exact ⟨args, done, (QemuArgs.noInjection_iff (by decide) done).2 valid⟩

/-- A name in Latin-1. -/
def latinDisk : FilePath :=
  utf8Bytes "caf" ++ [0xE9]

/-- QEMU is told to open another disk than the one that was given. -/
theorem not_noInjection_latinDisk :
    validateMemory (sampleArgs latinDisk).memory = .ok () ∧
      ∃ args,
        (sampleArgs latinDisk).toArgs (fun _ => true) = .ok args ∧
          ¬NoInjection (sampleArgs latinDisk) args := by
  have memory : validateMemory (sampleArgs latinDisk).memory = .ok () := by
    decide
  have succeeded :
      ((sampleArgs latinDisk).toArgs fun _ => true).isOk = true := by
    decide
  rcases exists_eq_ok_of_isOk succeeded with ⟨args, done⟩
  refine ⟨memory, args, done, fun none => ?_⟩
  have valid := (QemuArgs.parsedOptions_eq_iff memory done).1 none.intended
  have disk : latinDisk ∈ (sampleArgs latinDisk).propertyPaths := by decide
  exact absurd (valid latinDisk disk) (by decide)

end Confos.Image.Qemu
