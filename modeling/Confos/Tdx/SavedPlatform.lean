import Confos.Tdx.ExtractPlatform

/-!
# Measuring from saved platform files

`measure` takes the ACPI digests and the boot variables from an event log, or
from the files that `extract-platform` made of one.  The files of the boot
variables are found by the numbers in `BootOrder`, so the two ways agree where
the log has the variables in that order.
-/

namespace Confos.Tdx.SavedPlatform

open Confos.Library
open Confos.Library.ByteStrings
open Confos.Library.Effects
open Confos.Library.PathTexts
open Confos.Library.Text
open Confos.Tdx.Ccel
open Confos.Tdx.CcelRecords
open Confos.Tdx.CcelRoundTrip
open Confos.Tdx.ExtractPlatform
open Confos.Tdx.Firmware
open Confos.Tdx.Rtmr0

/-! ## Reading files -/

/-- The files of a system, where paths lead to them. -/
abbrev Files := Place → Option Bytes

def Files.write (files : Files) (file : FileWrite) : Files :=
  Function.update files file.path (some file.data)

def Files.after (files : Files) (written : List FileWrite) : Files :=
  written.foldl Files.write files

def showPlace (place : Place) : String :=
  "/" ++ "/".intercalate place

def Files.read (files : Files) (failure : String) (path : Place) :
    Except String Bytes :=
  match files path with
  | some bytes => .ok bytes
  | none => .error s!"{failure} {showPlace path}"

/-! ## ACPI digests -/

def hexLine (failure : String) (line : List Char) : Except String Bytes :=
  match hexDecode (trim line) with
  | some bytes => .ok bytes
  | none => .error failure

def AcpiHashes.ofLines (lines : List (List Char)) :
    Except String AcpiHashes :=
  match lines with
  | loader :: rsdp :: tables :: _ => do
      let loaderHash ← hexLine "invalid loader hash hex" loader
      let rsdpHash ← hexLine "invalid rsdp hash hex" rsdp
      let tablesHash ← hexLine "invalid tables hash hex" tables
      if loaderHash.length ≠ 48 ∨ rsdpHash.length ≠ 48 ∨
          tablesHash.length ≠ 48 then
        .error s!"ACPI hashes must be 48 bytes (SHA-384), got {loaderHash.length}/{rsdpHash.length}/{tablesHash.length}"
      else
        return { loaderHash, rsdpHash, tablesHash }
  | _ => .error "ACPI hash file must contain 3 lines (loader, rsdp, tables)"

/-- Bytes that are no text are read as little as a missing file. -/
def AcpiHashes.load (files : Files) (path : Place) :
    Except String AcpiHashes := do
  let bytes ← files.read "failed to read ACPI hashes:" path
  match utf8Text? bytes with
  | some content => AcpiHashes.ofLines (lines content.toList)
  | none => .error s!"failed to read ACPI hashes: {showPlace path}"

def AcpiHashes.fromFiles
    (sha384 : Bytes → Block 48) (files : Files)
    (tablesPath rsdpPath loaderPath : Place) : Except String AcpiHashes := do
  let tables ← files.read "failed to read ACPI tables:" tablesPath
  let rsdp ← files.read "failed to read ACPI RSDP:" rsdpPath
  let loader ← files.read "failed to read ACPI loader:" loaderPath
  .ok
    { loaderHash := (sha384 loader).bytes, rsdpHash := (sha384 rsdp).bytes,
      tablesHash := (sha384 tables).bytes }

/-! ## Boot variables -/

def upperDigit (digit : Nat) : Char :=
  (Nat.digitChar digit).toUpper

/-- The four digits of a number. -/
def hexPlaces (number : UInt16) : List Nat :=
  [number.toNat / 4096, number.toNat / 256 % 16, number.toNat / 16 % 16,
    number.toNat % 16]

/-- `Boot` and the four upper-case digits of a number. -/
def bootName (number : UInt16) : String :=
  "Boot" ++ String.ofList ((hexPlaces number).map upperDigit)

/-- The numbers of the boot options, from two bytes each. -/
def orderNumbers (bootOrder : Bytes) : List UInt16 :=
  (List.range (bootOrder.length / 2)).map fun index =>
    u16At bootOrder (2 * index)

def BootVars.loadFromDir (files : Files) (dir : Place) :
    Except String BootVars := do
  let bootOrder ← files.read "failed to read" (resolve dir "BootOrder.bin")
  if bootOrder.length % 2 ≠ 0 then
    .error "BootOrder data length must be even (array of UINT16s)"
  else
    let values ←
      (orderNumbers bootOrder).mapM fun number =>
        files.read "failed to read" (resolve dir (bootName number ++ ".bin"))
    return { entries := bootOrder :: values }

/-! ## The options of `measure` -/

structure PlatformOptions where
  platformCcel : Option Place
  acpiHashes : Option Place
  acpiTables : Option Place
  acpiRsdp : Option Place
  acpiLoader : Option Place
  bootVars : Option Place
deriving DecidableEq, Repr

section

variable (sha384 : Bytes → Block 48) (files : Files)
  (options : PlatformOptions)

def platformCcelData : Except String (Option Bytes) :=
  match options.platformCcel with
  | some path => (files.read "Failed to read CCEL:" path).map some
  | none => .ok none

/-- An error behind what was attempted. -/
def inContext {α : Type} (context : String) (computed : Except String α) :
    Except String α :=
  computed.mapError fun cause => s!"{context}: {cause}"

def resolveAcpiHashes (ccelData : Option Bytes) :
    Except String (Option AcpiHashes) :=
  match ccelData, options.acpiHashes with
  | some ccelData, _ =>
      (inContext "Failed to extract ACPI hashes from CCEL"
        (AcpiHashes.extractFromCcel ccelData)).map some
  | none, some path =>
      (inContext "Failed to load ACPI hashes"
        (AcpiHashes.load files path)).map some
  | none, none =>
      match options.acpiTables, options.acpiRsdp, options.acpiLoader with
      | some tables, some rsdp, some loader =>
          (inContext "Failed to load ACPI files"
            (AcpiHashes.fromFiles sha384 files tables rsdp loader)).map some
      | none, none, none => .ok none
      | _, _, _ =>
          .error "ACPI table measurement requires all three files: --acpi-tables, --acpi-rsdp, and --acpi-loader"

def resolveBootVars (ccelData : Option Bytes) :
    Except String (Option BootVars) :=
  match ccelData, options.bootVars with
  | some ccelData, _ =>
      (inContext "Failed to extract boot variables from CCEL"
        (BootVars.extractFromCcel ccelData)).map some
  | none, some dir =>
      (inContext "Failed to load boot variables"
        (BootVars.loadFromDir files dir)).map some
  | none, none => .ok none

/-- RTMR[0] as `measure` computes it. -/
def measuredRtmr0 (tdvf : Tdvf) (memorySize : UInt64) :
    Except String (Block 48 × Nat) := do
  let ccelData ← platformCcelData files options
  let acpiHashes ← resolveAcpiHashes sha384 files options ccelData
  let bootVars ← resolveBootVars files options ccelData
  rtmr0 sha384 tdvf memorySize acpiHashes bootVars

end

/-- `--platform-ccel`. -/
def ccelOptions (ccelPath : Place) : PlatformOptions where
  platformCcel := some ccelPath
  acpiHashes := none
  acpiTables := none
  acpiRsdp := none
  acpiLoader := none
  bootVars := none

/-- `--acpi-hashes` and `--boot-vars` of an output directory. -/
def savedOptions (outputDir : Place) : PlatformOptions where
  platformCcel := none
  acpiHashes := some (resolve outputDir acpiFileName)
  acpiTables := none
  acpiRsdp := none
  acpiLoader := none
  bootVars := some (bootDir outputDir)

/-! ## Files behind writes -/

section

variable {files : Files} {written : List FileWrite}

theorem Files.after_of_notMem
    {path : Place} (absent : path ∉ written.map (·.path)) :
    files.after written path = files path := by
  induction written generalizing files with
  | nil => rfl
  | cons file written induction =>
      rw [List.map_cons, List.mem_cons, not_or] at absent
      change (files.write file).after written path = files path
      rw [induction absent.2, Files.write, Function.update_of_ne absent.1]

/-- Each of the files at different paths is read as it was written. -/
theorem Files.after_of_mem
    {file : FileWrite} (apart : (written.map (·.path)).Nodup)
    (member : file ∈ written) :
    files.after written file.path = some file.data := by
  induction written generalizing files with
  | nil => cases member
  | cons first written induction =>
      rw [List.map_cons, List.nodup_cons] at apart
      change (files.write first).after written file.path = _
      rcases List.mem_cons.1 member with rfl | later
      · rw [Files.after_of_notMem apart.1, Files.write, Function.update_self]
      · exact induction apart.2 later

theorem Files.read_of_some
    {path : Place} {bytes : Bytes} (found : files path = some bytes)
    (failure : String) : files.read failure path = .ok bytes := by
  rw [Files.read, found]

end

/-! ## The saved digests -/

theorem hexLetter :
    ∀ digit < 16,
      isWhiteSpace (Nat.digitChar digit) = false ∧
        Nat.digitChar digit ≠ '\n' ∧ Nat.digitChar digit ≠ '\r' := by
  decide

/-- Hexadecimal text is one line, without white space. -/
theorem hexEncode_solid (bytes : Bytes) :
    ∀ char ∈ (hexEncode bytes).toList,
      isWhiteSpace char = false ∧ char ≠ '\n' ∧ char ≠ '\r' := by
  intro char member
  rw [hexEncode, String.toList_ofList, List.mem_flatMap] at member
  rcases member with ⟨byte, -, digit⟩
  have small : byte.toNat < 16 * 16 := byte.toNat_lt
  rw [hexDigits] at digit
  rcases List.mem_pair.1 digit with rfl | rfl
  · exact hexLetter _ (Nat.div_lt_of_lt_mul small)
  · exact hexLetter _ (Nat.mod_lt _ (by decide))

theorem stripReturn_hexEncode (bytes : Bytes) :
    stripReturn (hexEncode bytes).toList = (hexEncode bytes).toList := by
  rw [stripReturn, if_neg]
  intro ended
  exact (hexEncode_solid bytes _ (List.mem_of_getLast? ended)).2.2 rfl

theorem lines_text (hashes : AcpiHashes) :
    lines (AcpiHashes.text hashes).toList =
      [(hexEncode hashes.loaderHash).toList, (hexEncode hashes.rsdpHash).toList,
        (hexEncode hashes.tablesHash).toList] := by
  have noEnd (bytes : Bytes) : '\n' ∉ (hexEncode bytes).toList :=
    fun member => (hexEncode_solid bytes _ member).2.1 rfl
  have letters :
      (AcpiHashes.text hashes).toList =
        (hexEncode hashes.loaderHash).toList ++
          '\n' :: ((hexEncode hashes.rsdpHash).toList ++
            '\n' :: ((hexEncode hashes.tablesHash).toList ++ '\n' :: [])) := by
    simp [AcpiHashes.text]
  rw [lines, letters, List.splitOn_append_cons_self_of_not_mem (noEnd _),
    List.splitOn_append_cons_self_of_not_mem (noEnd _),
    List.splitOn_append_cons_self_of_not_mem (noEnd _)]
  change List.map stripReturn [_, _, _] = _
  rw [List.map_cons, List.map_cons, List.map_singleton, stripReturn_hexEncode,
    stripReturn_hexEncode, stripReturn_hexEncode]

theorem hexLine_hexEncode (failure : String) (bytes : Bytes) :
    hexLine failure (hexEncode bytes).toList = .ok bytes := by
  rw [hexLine,
    trim_eq_self fun char member => (hexEncode_solid bytes char member).1,
    hexDecode_hexEncode]

/-- Extracted digests have the length of SHA-384. -/
theorem length_of_extractFromCcel
    {ccelData : Bytes} {hashes : AcpiHashes}
    (extracted : AcpiHashes.extractFromCcel ccelData = .ok hashes) :
    hashes.loaderHash.length = 48 ∧ hashes.rsdpHash.length = 48 ∧
      hashes.tablesHash.length = 48 := by
  rcases Fallible.bind_eq_ok.1 extracted with ⟨events, -, picked⟩
  generalize (events.foldl acpiStep (false, [])).2 = digests at picked
  match digests, picked with
  | loader :: rsdp :: tables :: rest, picked =>
      rw [AcpiHashes.ofDigests] at picked
      split at picked
      · cases picked
      · next long =>
          cases picked
          simpa [List.find?_eq_none] using long

theorem ofLines_text
    {hashes : AcpiHashes}
    (long :
      hashes.loaderHash.length = 48 ∧ hashes.rsdpHash.length = 48 ∧
        hashes.tablesHash.length = 48) :
    AcpiHashes.ofLines (lines (AcpiHashes.text hashes).toList) =
      .ok hashes := by
  rw [lines_text, AcpiHashes.ofLines, hexLine_hexEncode, hexLine_hexEncode,
    hexLine_hexEncode]
  change (if _ then _ else _) = _
  rw [if_neg (by simp [long])]
  rfl

/-! ## The names of boot variables -/

theorem hexValue_upperDigit :
    ∀ digit < 16, hexValue (upperDigit digit) = some digit := by
  decide

theorem upperDigit_ne :
    ∀ digit < 16, upperDigit digit ≠ '/' ∧ upperDigit digit ≠ '\x00' := by
  decide

theorem hexPlaces_lt (number : UInt16) :
    ∀ digit ∈ hexPlaces number, digit < 16 := by
  have small : number.toNat < 2 ^ 16 := number.toNat_lt
  simp only [hexPlaces, List.forall_mem_cons]
  refine ⟨?_, ?_, ?_, ?_, List.forall_mem_nil _⟩
  all_goals omega

theorem hexPlaces_injective : Function.Injective hexPlaces := by
  intro left right same
  simp only [hexPlaces, List.cons.injEq] at same
  apply UInt16.toNat_inj.1
  omega

theorem toList_bootName (number : UInt16) :
    (bootName number).toList =
      "Boot".toList ++ (hexPlaces number).map upperDigit := by
  rw [bootName, String.toList_append]
  exact congrArg _ String.toList_ofList

/-- The digits are read back. -/
theorem map_hexValue_hexPlaces (number : UInt16) :
    ((hexPlaces number).map upperDigit).map hexValue =
      (hexPlaces number).map some := by
  rw [List.map_map]
  exact
    List.map_congr_left fun digit member =>
      hexValue_upperDigit digit (hexPlaces_lt number digit member)

theorem bootName_injective : Function.Injective bootName := by
  intro left right same
  have letters := congrArg String.toList same
  rw [toList_bootName, toList_bootName, List.append_cancel_left_eq] at letters
  have digits := congrArg (List.map hexValue) letters
  rw [map_hexValue_hexPlaces, map_hexValue_hexPlaces] at digits
  exact hexPlaces_injective ((Option.some_injective _).list_map digits)

theorem bootOrder_ne_bootName (number : UInt16) :
    "BootOrder" ≠ bootName number := by
  intro same
  have lengths := congrArg (fun name => name.toList.length) same
  rw [toList_bootName] at lengths
  exact absurd lengths (by simp [hexPlaces])

/-- A name of a file of its own, which no slash and no NUL stand in. -/
def IsPlain (name : String) : Prop :=
  '/' ∉ name.toList ∧ '\x00' ∉ name.toList

theorem isPlain_bootName (number : UInt16) : IsPlain (bootName number) := by
  rw [IsPlain, toList_bootName]
  constructor
  all_goals
    intro member
    rcases List.mem_append.1 member with front | digits
    · exact absurd front (by decide)
    · rcases List.mem_map.1 digits with ⟨digit, inside, same⟩
      have others := upperDigit_ne digit (hexPlaces_lt number digit inside)
      simp [same] at others

theorem isPlain_bootOrder : IsPlain "BootOrder" := by
  constructor
  all_goals decide

theorem resolve_fileName {name : String} (plain : IsPlain name) (dir : Place) :
    resolve dir (name ++ fileEnding) = dir ++ [name ++ fileEnding] := by
  rw [resolve_append fileEnding_notMem (by decide),
    directoryOf_of_notMem plain.1, lastSegment_of_notMem plain.1]

/-! ## A boot in order -/

/-- The boot variable events of RTMR[0]. -/
def bootEvents (events : List CcelEvent) : List CcelEvent :=
  events.filter fun event =>
    event.eventType = 0x80000002 ∧ event.mrIndex = 1

/-- `BootOrder` and its options, in its order. -/
def orderedVariables (order : Bytes) (values : List Bytes) :
    List (String × Bytes) :=
  ("BootOrder", order) :: ((orderNumbers order).map bootName).zip values

/-- The boot variable events are `BootOrder` and its options, in its order. -/
structure BootsInOrder (events : List CcelEvent) where
  order : Bytes
  values : List Bytes
  even : order.length % 2 = 0
  distinct : (orderNumbers order).Nodup
  length_eq : values.length = (orderNumbers order).length
  logged :
    ((bootEvents events).map fun event =>
        parseUefiVariableData event.eventData) =
      (orderedVariables order values).map some

namespace BootsInOrder

variable {events : List CcelEvent} (boots : BootsInOrder events)

theorem filterMap_loggedVariable :
    events.filterMap loggedVariable =
      orderedVariables boots.order boots.values := by
  have read :
      events.filterMap loggedVariable =
        ((bootEvents events).map fun event =>
          parseUefiVariableData event.eventData).filterMap id := by
    rw [List.filterMap_map, bootEvents, List.filterMap_filter]
    refine List.filterMap_congr fun event _ => ?_
    rw [loggedVariable]
    by_cases boot : event.eventType = 0x80000002 ∧ event.mrIndex = 1
    · rw [if_neg (by simp [boot.1, boot.2]), if_pos (by simp [boot.1, boot.2])]
      rfl
    · rw [if_pos (by simpa [or_iff_not_imp_left] using boot),
        if_neg (by simpa using boot)]
  rw [read, boots.logged, List.filterMap_map]
  exact List.filterMap_some

theorem names_values :
    ((loggedVariables events).map fun logged => (logged.name, logged.value)) =
      orderedVariables boots.order boots.values := by
  rw [← boots.filterMap_loggedVariable, loggedVariables, List.map_filterMap]
  refine List.filterMap_congr fun event _ => ?_
  rw [Logged.of]
  cases loggedVariable event with
  | none => rfl
  | some read => rfl

/-- The names in front of the values. -/
theorem map_fst :
    (orderedVariables boots.order boots.values).map (·.1) =
      "BootOrder" :: (orderNumbers boots.order).map bootName := by
  rw [orderedVariables, List.map_cons, List.map_fst_zip]
  rw [List.length_map, boots.length_eq]

theorem nodup_names :
    ((orderedVariables boots.order boots.values).map (·.1)).Nodup := by
  rw [boots.map_fst, List.nodup_cons]
  constructor
  · intro member
    rcases List.mem_map.1 member with ⟨number, -, same⟩
    exact bootOrder_ne_bootName number same.symm
  · exact boots.distinct.map bootName_injective

theorem isPlain_of_mem
    {named : String × Bytes}
    (member : named ∈ orderedVariables boots.order boots.values) :
    IsPlain named.1 := by
  have inside := List.mem_map_of_mem (f := (·.1)) member
  rw [boots.map_fst] at inside
  rcases List.mem_cons.1 inside with order | option
  · rw [order]
    exact isPlain_bootOrder
  · rcases List.mem_map.1 option with ⟨number, -, same⟩
    rw [← same]
    exact isPlain_bootName number

end BootsInOrder

/-! ## Saved files -/

section

variable {ccelData : Bytes} {outputDir : Place} {host : Host}

/-- A command that ends has written the digests and all the variables. -/
theorem cmdExtractPlatform_eq_ok
    {hashes : AcpiHashes} {events : List CcelEvent} {written : List FileWrite}
    (extracted : AcpiHashes.extractFromCcel ccelData = .ok hashes)
    (parsed : parseCcel ccelData = .ok events)
    (ran : cmdExtractPlatform host ccelData outputDir [] = .ok () written) :
    written =
      acpiWrite outputDir hashes ::
        (loggedVariables events).map (Logged.fileWrite outputDir) := by
  rcases bind_eq_ok.1 ran with ⟨_, created, creating, ran⟩
  have fresh : created = [] := eq_of_createDirAll_eq_ok creating
  rcases bind_eq_ok.1 ran with ⟨acpi, read, acpiRead, ran⟩
  rcases ofExcept_eq_ok.1 acpiRead with ⟨acpiSame, rfl⟩
  cases extracted.symm.trans acpiSame
  rcases bind_eq_ok.1 ran with ⟨_, saved, saving, ran⟩
  rcases bind_eq_ok.1 ran with ⟨found, again, eventsRead, ran⟩
  rcases ofExcept_eq_ok.1 eventsRead with ⟨eventsSame, rfl⟩
  cases parsed.symm.trans eventsSame
  rcases bind_eq_ok.1 ran with ⟨_, made, making, ran⟩
  have savedSame : saved = created ++ [acpiWrite outputDir hashes] := by
    rw [AcpiHashes.save, write_eq, if_neg acpiFileName_notMem] at saving
    split at saving
    · cases saving
      rfl
    · cases saving
  rw [forM_extractVariable_eq_ok ran, eq_of_createDirAll_eq_ok making, savedSame, fresh]
  rfl

/-- A host that lets everything be made has the loop come to its end. -/
theorem forM_extractVariable_permissiveHost
    {events : List CcelEvent} {written : List FileWrite}
    (named : ∀ logged ∈ loggedVariables events, logged.hasNul = false) :
    events.forM (extractVariable permissiveHost outputDir) written =
      .ok ⟨⟩
        (written ++
          (loggedVariables events).map (Logged.fileWrite outputDir)) := by
  induction events generalizing written with
  | nil => exact congrArg (EStateM.Result.ok _) (List.append_nil written).symm
  | cons event events induction =>
      rw [forM_cons]
      cases isBoot : Logged.of event with
      | none =>
          rw [loggedVariables, List.filterMap_cons_none isBoot] at named ⊢
          rw [bind_of_ok (extractVariable_of_none isBoot)]
          exact induction named
      | some logged =>
          rw [loggedVariables, List.filterMap_cons_some isBoot] at named ⊢
          rw [List.forall_mem_cons] at named
          have ran :
              extractVariable permissiveHost outputDir event written =
                .ok () (written ++ [logged.fileWrite outputDir]) := by
            rw [extractVariable_of_some isBoot, if_neg (by simp [named.1])]
            rfl
          rw [bind_of_ok ran, induction named.2, List.append_assoc]
          rfl

theorem cmdExtractPlatform_permissiveHost
    {hashes : AcpiHashes} {events : List CcelEvent}
    (extracted : AcpiHashes.extractFromCcel ccelData = .ok hashes)
    (parsed : parseCcel ccelData = .ok events)
    (named : ∀ logged ∈ loggedVariables events, logged.hasNul = false) :
    cmdExtractPlatform permissiveHost ccelData outputDir [] =
      .ok ()
        (acpiWrite outputDir hashes ::
          (loggedVariables events).map (Logged.fileWrite outputDir)) := by
  rw [cmdExtractPlatform_eq_forM_permissiveHost extracted parsed,
    forM_extractVariable_permissiveHost named]
  rfl

end

namespace BootsInOrder

variable {events : List CcelEvent} (boots : BootsInOrder events)
  (outputDir : Place)

include boots

theorem isPlain_of_mem_loggedVariables
    {logged : Logged} (member : logged ∈ loggedVariables events) :
    IsPlain logged.name := by
  have inside :
      (logged.name, logged.value) ∈
        orderedVariables boots.order boots.values := by
    rw [← boots.names_values]
    exact List.mem_map.2 ⟨logged, member, rfl⟩
  exact boots.isPlain_of_mem inside

theorem hasNul_eq_false
    {logged : Logged} (member : logged ∈ loggedVariables events) :
    logged.hasNul = false := by
  have plain := boots.isPlain_of_mem_loggedVariables member
  rw [Logged.hasNul, String.toList_append, ← Bool.not_eq_true,
    List.contains_iff_mem, List.mem_append, not_or]
  exact ⟨plain.2, by decide⟩

theorem path_eq
    {logged : Logged} (member : logged ∈ loggedVariables events) :
    (logged.fileWrite outputDir).path =
      bootDir outputDir ++ [logged.name ++ fileEnding] :=
  resolve_fileName (boots.isPlain_of_mem_loggedVariables member) _

/-- The files of the command are at different paths. -/
theorem nodup_paths (hashes : AcpiHashes) :
    ((acpiWrite outputDir hashes ::
          (loggedVariables events).map
            (Logged.fileWrite outputDir)).map (·.path)).Nodup := by
  have names : ((loggedVariables events).map (·.name)).Nodup := by
    have nodup := boots.nodup_names
    rwa [← boots.names_values, List.map_map] at nodup
  rw [List.map_cons, List.nodup_cons, List.map_map]
  constructor
  · intro member
    rcases List.mem_map.1 member with ⟨logged, inside, same⟩
    have lengths := congrArg List.length same
    change (logged.fileWrite outputDir).path.length = _ at lengths
    rw [boots.path_eq outputDir inside, path_acpiWrite] at lengths
    simp [bootDir] at lengths
  · refine (List.nodup_map_iff_inj_on (List.Nodup.of_map _ names)).2 ?_
    intro left leftMember right rightMember same
    change (left.fileWrite outputDir).path = (right.fileWrite outputDir).path
      at same
    rw [boots.path_eq outputDir leftMember, boots.path_eq outputDir rightMember,
      List.append_cancel_left_eq, List.singleton_inj] at same
    refine
      (List.nodup_map_iff_inj_on (List.Nodup.of_map _ names)).1 names left
        leftMember right rightMember ?_
    have letters := congrArg String.toList same
    rw [String.toList_append, String.toList_append,
      List.append_cancel_right_eq] at letters
    exact String.toList_injective letters

/-- What the command leaves has each variable under its name. -/
theorem after_eq
    (files : Files) (hashes : AcpiHashes) {named : String × Bytes}
    (member : named ∈ orderedVariables boots.order boots.values) :
    files.after
        (acpiWrite outputDir hashes ::
          (loggedVariables events).map (Logged.fileWrite outputDir))
        (resolve (bootDir outputDir) (named.1 ++ fileEnding)) =
      some named.2 := by
  rw [← boots.names_values] at member
  rcases List.mem_map.1 member with ⟨logged, inside, rfl⟩
  exact
    Files.after_of_mem (boots.nodup_paths outputDir hashes)
      (List.mem_cons_of_mem _ (List.mem_map_of_mem inside))

/-- The directory is read in the order of the log. -/
theorem loadFromDir
    {files : Files}
    (saved :
      ∀ named ∈ orderedVariables boots.order boots.values,
        files (resolve (bootDir outputDir) (named.1 ++ fileEnding)) =
          some named.2) :
    BootVars.loadFromDir files (bootDir outputDir) =
      .ok { entries := boots.order :: boots.values } := by
  have order :
      files.read "failed to read"
          (resolve (bootDir outputDir) "BootOrder.bin") =
        .ok boots.order :=
    Files.read_of_some (saved ("BootOrder", boots.order) List.mem_cons_self) _
  have values :
      ((orderNumbers boots.order).mapM fun number =>
          files.read "failed to read"
            (resolve (bootDir outputDir) (bootName number ++ ".bin"))) =
        .ok boots.values := by
    refine Fallible.mapM_eq_ok.2 (List.forall₂_iff_zip.2 ⟨?_, ?_⟩)
    · exact boots.length_eq.symm
    · intro number value member
      refine
        Files.read_of_some
          (saved (bootName number, value) (List.mem_cons_of_mem _ ?_)) _
      rw [List.zip_map_left]
      exact List.mem_map.2 ⟨(number, value), member, rfl⟩
  have even : ¬ boots.order.length % 2 ≠ 0 := not_not.2 boots.even
  rw [BootVars.loadFromDir, Fallible.bind_eq_ok]
  refine ⟨boots.order, order, ?_⟩
  rw [if_neg even, Fallible.bind_eq_ok]
  exact ⟨boots.values, values, rfl⟩

/-- The log gives the values in the same order. -/
theorem extractFromCcel
    {ccelData : Bytes} (parsed : parseCcel ccelData = .ok events) :
    BootVars.extractFromCcel ccelData =
      .ok { entries := boots.order :: boots.values } := by
  have entries : events.filterMap bootVarOf = boots.order :: boots.values := by
    have values :
        events.filterMap bootVarOf =
          (events.filterMap loggedVariable).map (·.2) := by
      rw [List.map_filterMap]
      refine List.filterMap_congr fun event _ => ?_
      rw [bootVarOf, loggedVariable]
      by_cases boot : event.eventType = 0x80000002 ∧ event.mrIndex = 1
      · rw [if_pos boot, if_neg (by simp [boot.1, boot.2])]
      · rw [if_neg boot, if_pos (by simpa [or_iff_not_imp_left] using boot)]
        rfl
    rw [values, boots.filterMap_loggedVariable, orderedVariables,
      List.map_cons, List.map_snd_zip]
    rw [List.length_map, boots.length_eq]
  rw [BootVars.extractFromCcel, parsed]
  change (if (events.filterMap bootVarOf).isEmpty then _ else _) = _
  rw [entries]
  rfl

end BootsInOrder

/-! ## The two ways -/

section

variable {ccelData : Bytes} {events : List CcelEvent} {hashes : AcpiHashes}

theorem measuredRtmr0_ccelOptions
    (sha384 : Bytes → Block 48) {files : Files} {ccelPath : Place}
    (stored : files ccelPath = some ccelData)
    (extracted : AcpiHashes.extractFromCcel ccelData = .ok hashes)
    {bootVars : BootVars}
    (booted : BootVars.extractFromCcel ccelData = .ok bootVars)
    (tdvf : Tdvf) (memorySize : UInt64) :
    measuredRtmr0 sha384 files (ccelOptions ccelPath) tdvf memorySize =
      rtmr0 sha384 tdvf memorySize (some hashes) (some bootVars) := by
  have read :
      platformCcelData files (ccelOptions ccelPath) = .ok (some ccelData) := by
    change (files.read _ ccelPath).map some = _
    rw [Files.read_of_some stored]
    rfl
  have acpi :
      resolveAcpiHashes sha384 files (ccelOptions ccelPath) (some ccelData) =
        .ok (some hashes) := by
    rw [resolveAcpiHashes, extracted]
    rfl
  have boot :
      resolveBootVars files (ccelOptions ccelPath) (some ccelData) =
        .ok (some bootVars) := by
    rw [resolveBootVars, booted]
    rfl
  rw [measuredRtmr0, read]
  change resolveAcpiHashes sha384 files _ (some ccelData) >>= _ = _
  rw [acpi]
  change resolveBootVars files _ (some ccelData) >>= _ = _
  rw [boot]
  rfl

theorem measuredRtmr0_savedOptions
    (sha384 : Bytes → Block 48) {files : Files} {outputDir : Place}
    (loaded :
      AcpiHashes.load files (resolve outputDir acpiFileName) = .ok hashes)
    {bootVars : BootVars}
    (booted : BootVars.loadFromDir files (bootDir outputDir) = .ok bootVars)
    (tdvf : Tdvf) (memorySize : UInt64) :
    measuredRtmr0 sha384 files (savedOptions outputDir) tdvf memorySize =
      rtmr0 sha384 tdvf memorySize (some hashes) (some bootVars) := by
  have acpi :
      resolveAcpiHashes sha384 files (savedOptions outputDir) none =
        .ok (some hashes) := by
    change (inContext _ (AcpiHashes.load files _)).map some = _
    rw [loaded]
    rfl
  have boot :
      resolveBootVars files (savedOptions outputDir) none =
        .ok (some bootVars) := by
    change (inContext _ (BootVars.loadFromDir files _)).map some = _
    rw [booted]
    rfl
  change resolveAcpiHashes sha384 files _ none >>= _ = _
  rw [acpi]
  change resolveBootVars files _ none >>= _ = _
  rw [boot]
  rfl

/-- The saved digests are read back. -/
theorem load_saved
    {files : Files} {outputDir : Place}
    (extracted : AcpiHashes.extractFromCcel ccelData = .ok hashes)
    (saved :
      files (resolve outputDir acpiFileName) =
        some (acpiWrite outputDir hashes).data) :
    AcpiHashes.load files (resolve outputDir acpiFileName) = .ok hashes := by
  rw [AcpiHashes.load, Files.read_of_some saved]
  change
    (match utf8Text? (utf8Bytes (AcpiHashes.text hashes)) with
      | some content => AcpiHashes.ofLines (lines content.toList)
      | none => _) = _
  rw [utf8Text?_utf8Bytes]
  exact ofLines_text (length_of_extractFromCcel extracted)

/--
The files that are made of a log with its boot variables in order measure as the
log does, and they can be made.
-/
theorem measuredRtmr0_saved_eq
    (sha384 : Bytes → Block 48)
    (parsed : parseCcel ccelData = .ok events)
    (extracted : AcpiHashes.extractFromCcel ccelData = .ok hashes)
    (boots : BootsInOrder events) (outputDir : Place) :
    succeeds (cmdExtractPlatform permissiveHost ccelData outputDir []) ∧
      ∀ (host : Host) (written : List FileWrite) (files : Files)
        (ccelPath : Place),
        files ccelPath = some ccelData →
          cmdExtractPlatform host ccelData outputDir [] = .ok () written →
            ∀ (tdvf : Tdvf) (memorySize : UInt64),
              measuredRtmr0 sha384 (files.after written)
                  (savedOptions outputDir) tdvf memorySize =
                measuredRtmr0 sha384 files (ccelOptions ccelPath) tdvf
                  memorySize := by
  constructor
  · rw [cmdExtractPlatform_permissiveHost extracted parsed
      fun logged member => boots.hasNul_eq_false member]
    rfl
  · intro host written files ccelPath stored ran tdvf memorySize
    have files_eq := cmdExtractPlatform_eq_ok extracted parsed ran
    have acpi :
        AcpiHashes.load (files.after written)
          (resolve outputDir acpiFileName) = .ok hashes := by
      refine load_saved extracted ?_
      rw [files_eq, acpiWrite]
      exact
        Files.after_of_mem (boots.nodup_paths outputDir hashes)
          List.mem_cons_self
    have boot :
        BootVars.loadFromDir (files.after written) (bootDir outputDir) =
          .ok { entries := boots.order :: boots.values } := by
      refine boots.loadFromDir outputDir fun named member => ?_
      rw [files_eq]
      exact boots.after_eq outputDir files hashes member
    rw [measuredRtmr0_savedOptions sha384 acpi boot,
      measuredRtmr0_ccelOptions sha384 stored extracted
        (boots.extractFromCcel parsed)]

end

/-! ## A boot with one option -/

/-- A variable of RTMR[0] with its value. -/
def bootMessage (name : String) (value : Bytes) : Bytes :=
  ({ guid := Block.zero 16, name, value } : EfiVariables.Variable).message

theorem orderMessage_lt :
    (bootMessage "BootOrder" [0xAB, 0x01]).length < 2 ^ 32 := by
  decide +kernel

theorem optionMessage_lt :
    (bootMessage "Boot01AB" [7]).length < 2 ^ 32 := by
  decide +kernel

def orderedLog : EventLog where
  header := emptyHeader
  records :=
    acpiRecords ++
      [guestRecord 0x80000002 (bootMessage "BootOrder" [0xAB, 0x01])
          orderMessage_lt,
        guestRecord 0x80000002 (bootMessage "Boot01AB" [7]) optionMessage_lt]
  few := by decide +kernel

def orderedBoots : BootsInOrder (recordEvents orderedLog.records) where
  order := [0xAB, 0x01]
  values := [[7]]
  even := rfl
  distinct := by decide
  length_eq := rfl
  logged := by decide +kernel

theorem extractFromCcel_orderedLog :
    AcpiHashes.extractFromCcel orderedLog.encode =
      .ok
        { loaderHash := List.replicate 48 0, rsdpHash := List.replicate 48 0,
          tablesHash := List.replicate 48 0 } := by
  have parsed := parseCcel_encode orderedLog .empty
  rw [LogTail.encode, List.append_nil] at parsed
  rw [AcpiHashes.extractFromCcel, parsed]
  rfl

theorem measuredRtmr0_saved_eq_orderedLog :
    ∃ (files : Files) (written : List FileWrite),
      files ["ccel"] = some orderedLog.encode ∧
        cmdExtractPlatform permissiveHost orderedLog.encode ["out"] [] =
            .ok () written ∧
          ∀ (tdvf : Tdvf) (memorySize : UInt64),
            measuredRtmr0 (fun _ => Block.zero 48) (files.after written)
                (savedOptions ["out"]) tdvf memorySize =
              measuredRtmr0 (fun _ => Block.zero 48) files
                (ccelOptions ["ccel"]) tdvf memorySize := by
  have parsed := parseCcel_encode orderedLog .empty
  rw [LogTail.encode, List.append_nil] at parsed
  have saved :=
    measuredRtmr0_saved_eq (fun _ => Block.zero 48) parsed
      extractFromCcel_orderedLog orderedBoots ["out"]
  rcases exists_eq_ok_of_succeeds saved.1 with ⟨⟨⟩, written, ran⟩
  have stored :
      Function.update (fun _ => none) ["ccel"] (some orderedLog.encode)
          ["ccel"] =
        some orderedLog.encode :=
    Function.update_self ..
  exact
    ⟨_, written, stored, ran,
      saved.2 permissiveHost written _ ["ccel"] stored ran⟩

end Confos.Tdx.SavedPlatform
