import Confos.Library.Effects
import Confos.Library.PathTexts
import Confos.Library.Text
import Confos.Tdx.CcelRoundTrip
import Confos.Tdx.EfiVariables

/-!
# The platform files of an event log

`extract-platform` saves the ACPI digests and the boot variables of a log below
an output directory.  The files of the variables are named by the log, so the
names decide where they are written.
-/

namespace Confos.Tdx.ExtractPlatform

open Confos.Library.ByteStrings
open Confos.Library.Effects
open Confos.Library.PathTexts
open Confos.Tdx.Ccel
open Confos.Tdx.CcelRecords
open Confos.Tdx.CcelRoundTrip
open Confos.Tdx.Rtmr0

/-! ## Files -/

/-- A file that is written, where its path leads, and the event it is for. -/
structure FileWrite where
  source : Option CcelEvent
  path : Place
  data : Bytes
deriving DecidableEq, Repr

/-- What the system lets be made, behind the files written so far. -/
structure Host where
  createsDir : List FileWrite → Place → Bool
  writes : List FileWrite → Place → String → Bool

/-- A run leaves the files that it has written. -/
abbrev Program := EStateM String (List FileWrite)

section

variable (host : Host)

def createDirAll (directory : Place) : Program Unit := do
  if host.createsDir (← get) directory then
    return
  else
    throw "Failed to create output dir"

/-- `fs::write` at a path below a directory without symbolic links. -/
def write
    (source : Option CcelEvent) (directory : Place) (path : String)
    (data : Bytes) : Program Unit := do
  let written ← get
  if '\x00' ∈ path.toList then
    throw "file name contained an unexpected NUL byte"
  else if host.writes written directory path then
    set (written ++ [{ source, path := resolve directory path, data }])
  else
    throw "failed to write"

/-! ## The command -/

def acpiFileName : String := "acpi_hashes.txt"

def bootDir (outputDir : Place) : Place :=
  outputDir ++ ["boot-vars"]

/-- The text of the digests, one a line. -/
def AcpiHashes.text (hashes : AcpiHashes) : String :=
  hexEncode hashes.loaderHash ++ "\n" ++ hexEncode hashes.rsdpHash ++ "\n" ++
    hexEncode hashes.tablesHash ++ "\n"

def AcpiHashes.save (hashes : AcpiHashes) (outputDir : Place) : Program Unit :=
  write host none outputDir acpiFileName (utf8Bytes (AcpiHashes.text hashes))

/-- The name and the value of a boot variable of RTMR[0]. -/
def loggedVariable (event : CcelEvent) : Option (String × Bytes) :=
  if event.eventType ≠ 0x80000002 ∨ event.mrIndex ≠ 1 then
    none
  else
    parseUefiVariableData event.eventData

def fileEnding : String := ".bin"

def extractVariable (outputDir : Place) (event : CcelEvent) : Program Unit :=
  match loggedVariable event with
  | none => return
  | some (name, value) =>
      write host (some event) (bootDir outputDir) (name ++ fileEnding) value

def cmdExtractPlatform (ccelData : Bytes) (outputDir : Place) :
    Program Unit := do
  createDirAll host outputDir
  let acpi ← MonadExcept.ofExcept (AcpiHashes.extractFromCcel ccelData)
  AcpiHashes.save host acpi outputDir
  let events ← MonadExcept.ofExcept (parseCcel ccelData)
  createDirAll host (bootDir outputDir)
  events.forM (extractVariable host outputDir)

end

/-! ## What the loop writes -/

/-- An event of a boot variable with what is read from it. -/
structure Logged where
  event : CcelEvent
  name : String
  value : Bytes
deriving DecidableEq, Repr

def Logged.of (event : CcelEvent) : Option Logged :=
  (loggedVariable event).map fun read =>
    { event, name := read.1, value := read.2 }

/-- A name that no file can have. -/
def Logged.hasNul (logged : Logged) : Bool :=
  (logged.name ++ fileEnding).toList.contains '\x00'

/-- The boot variables of a log. -/
def loggedVariables (events : List CcelEvent) : List Logged :=
  events.filterMap Logged.of

/-- The boot variables in front of the first one with a NUL in its name. -/
def reached (events : List CcelEvent) : List Logged :=
  (loggedVariables events).takeWhile fun logged => !logged.hasNul

/-- The file of a boot variable. -/
def Logged.fileWrite (outputDir : Place) (logged : Logged) : FileWrite where
  source := some logged.event
  path := resolve (bootDir outputDir) (logged.name ++ fileEnding)
  data := logged.value

def acpiWrite (outputDir : Place) (hashes : AcpiHashes) : FileWrite where
  source := none
  path := resolve outputDir acpiFileName
  data := utf8Bytes (AcpiHashes.text hashes)

section

variable {host : Host} {outputDir : Place} {written : List FileWrite}

theorem write_eq
    (source : Option CcelEvent) (directory : Place) (path : String)
    (data : Bytes) :
    write host source directory path data written =
      if '\x00' ∈ path.toList then
        .error "file name contained an unexpected NUL byte" written
      else if host.writes written directory path then
        .ok () (written ++ [{ source, path := resolve directory path, data }])
      else
        .error "failed to write" written := by
  change
    (if '\x00' ∈ path.toList then throw _ else
      if host.writes written directory path then _ else
        (throw _ : Program Unit)) written = _
  split
  · rfl
  · split
    · rfl
    · rfl

theorem extractVariable_of_none
    {event : CcelEvent} (notBoot : Logged.of event = none) :
    extractVariable host outputDir event written = .ok () written := by
  rw [extractVariable, Option.map_eq_none_iff.1 notBoot]
  rfl

theorem extractVariable_of_some
    {event : CcelEvent} {logged : Logged}
    (isBoot : Logged.of event = some logged) :
    extractVariable host outputDir event written =
      if logged.hasNul then
        .error "file name contained an unexpected NUL byte" written
      else if
        host.writes written (bootDir outputDir)
          (logged.name ++ fileEnding) then
        .ok () (written ++ [logged.fileWrite outputDir])
      else
        .error "failed to write" written := by
  rcases Option.map_eq_some_iff.1 isBoot with ⟨⟨name, value⟩, read, rfl⟩
  rw [extractVariable, read]
  dsimp only
  rw [write_eq, Logged.hasNul]
  simp only [List.contains_iff_mem]
  rfl

theorem reached_cons_of_none
    {event : CcelEvent} {events : List CcelEvent}
    (notBoot : Logged.of event = none) :
    reached (event :: events) = reached events := by
  rw [reached, reached, loggedVariables, loggedVariables,
    List.filterMap_cons_none notBoot]

theorem reached_cons_of_some
    {event : CcelEvent} {events : List CcelEvent} {logged : Logged}
    (isBoot : Logged.of event = some logged) :
    reached (event :: events) =
      if logged.hasNul then [] else logged :: reached events := by
  rw [reached, reached, loggedVariables, loggedVariables,
    List.filterMap_cons_some isBoot, List.takeWhile_cons]
  cases logged.hasNul with
  | true => rfl
  | false => rfl

/-- The loop writes files of the variables it reaches. -/
theorem mem_forM_extractVariable
    {events : List CcelEvent} {file : FileWrite}
    (member :
      file ∈ worldAfter (events.forM (extractVariable host outputDir) written)) :
    file ∈ written ∨
      ∃ logged ∈ reached events, file = logged.fileWrite outputDir := by
  induction events generalizing written with
  | nil => exact Or.inl member
  | cons event events induction =>
      rw [forM_cons] at member
      cases isBoot : Logged.of event with
      | none =>
          rw [bind_of_ok (extractVariable_of_none isBoot)] at member
          rw [reached_cons_of_none isBoot]
          exact induction member
      | some logged =>
          have ran :=
            @extractVariable_of_some host outputDir written event logged isBoot
          rw [reached_cons_of_some isBoot]
          by_cases nul : logged.hasNul = true
          · rw [if_pos nul] at ran ⊢
            rw [bind_of_error ran] at member
            exact Or.inl member
          · rw [if_neg nul] at ran ⊢
            split at ran
            · rw [bind_of_ok ran] at member
              rcases induction member with earlier | ⟨other, inside, same⟩
              · rcases List.mem_append.1 earlier with before | now
                · exact Or.inl before
                · exact
                    Or.inr
                      ⟨logged, List.mem_cons_self, List.mem_singleton.1 now⟩
              · exact Or.inr ⟨other, List.mem_cons_of_mem _ inside, same⟩
            · rw [bind_of_error ran] at member
              exact Or.inl member

/-- A host that lets everything be made has all the files written. -/
theorem worldAfter_forM_of_permissive
    (permissive : ∀ written directory path, host.writes written directory path)
    {events : List CcelEvent} :
    worldAfter (events.forM (extractVariable host outputDir) written) =
      written ++ (reached events).map (Logged.fileWrite outputDir) := by
  induction events generalizing written with
  | nil => exact (List.append_nil written).symm
  | cons event events induction =>
      rw [forM_cons]
      cases isBoot : Logged.of event with
      | none =>
          rw [bind_of_ok (extractVariable_of_none isBoot), induction,
            reached_cons_of_none isBoot]
      | some logged =>
          have ran :=
            @extractVariable_of_some host outputDir written event logged isBoot
          rw [reached_cons_of_some isBoot]
          by_cases nul : logged.hasNul = true
          · rw [if_pos nul] at ran ⊢
            rw [bind_of_error ran]
            exact (List.append_nil written).symm
          · rw [if_neg nul, if_pos (permissive _ _ _)] at ran
            rw [if_neg nul, bind_of_ok ran, induction, List.append_assoc]
            rfl

/-- A loop that ends has written the files of all the variables. -/
theorem forM_extractVariable_eq_ok
    {events : List CcelEvent} {after : List FileWrite}
    (ran :
      events.forM (extractVariable host outputDir) written = .ok ⟨⟩ after) :
    after =
      written ++ (loggedVariables events).map (Logged.fileWrite outputDir) := by
  induction events generalizing written with
  | nil =>
      rcases pure_eq_ok.1 ran with ⟨-, rfl⟩
      exact (List.append_nil written).symm
  | cons event events induction =>
      rw [forM_cons] at ran
      cases isBoot : Logged.of event with
      | none =>
          rw [bind_of_ok (extractVariable_of_none isBoot)] at ran
          rw [induction ran, loggedVariables, loggedVariables,
            List.filterMap_cons_none isBoot]
      | some logged =>
          rw [loggedVariables, List.filterMap_cons_some isBoot]
          rcases bind_eq_ok.1 ran with ⟨⟨⟩, middle, first, rest⟩
          rw [extractVariable_of_some isBoot] at first
          split at first
          · cases first
          · split at first
            · cases first
              rw [induction rest, List.append_assoc]
              rfl
            · cases first

end

/-! ## Containment -/

/-- The UTF-16 name of a variable as the log has it. -/
def variableName (event : CcelEvent) : Bytes :=
  slice event.eventData 32
    ((Firmware.u64At event.eventData 16).toNat * 2)

/-- The digests, or files of the variables' own directory, one for each name. -/
structure Contained (outputDir : Place) (files : List FileWrite) : Prop where
  inside :
    ∀ file ∈ files,
      file.path = outputDir ++ [acpiFileName] ∨
        ∃ name, file.path = bootDir outputDir ++ [name]
  apart :
    ∀ left ∈ files, ∀ right ∈ files, ∀ leftEvent rightEvent,
      left.source = some leftEvent → right.source = some rightEvent →
        variableName leftEvent ≠ variableName rightEvent →
          left.path ≠ right.path

section

variable (ccelData : Bytes) (outputDir : Place)

/-- The boot variables that the command comes to. -/
def reachedIn : List Logged :=
  match AcpiHashes.extractFromCcel ccelData, parseCcel ccelData with
  | .ok _, .ok events => reached events
  | _, _ => []

/-- The directories in a name lead back to where they start from, and two
names differ behind their last slash. -/
structure NamesStay : Prop where
  leadBack :
    ∀ logged ∈ reachedIn ccelData,
      directoryOf (bootDir outputDir) logged.name = bootDir outputDir
  apart :
    ∀ left ∈ reachedIn ccelData, ∀ right ∈ reachedIn ccelData,
      variableName left.event ≠ variableName right.event →
        lastSegment left.name ≠ lastSegment right.name

/-- The files that the command may write. -/
def IsWritten (files : List FileWrite) : Prop :=
  ∀ file ∈ files,
    (∃ hashes, file = acpiWrite outputDir hashes) ∨
      ∃ logged ∈ reachedIn ccelData, file = logged.fileWrite outputDir

end

section

variable {ccelData : Bytes} {outputDir : Place}

theorem preserves_createDirAll
    {Invariant : List FileWrite → Prop} (host : Host) (directory : Place) :
    Preserves Invariant (createDirAll host directory) := by
  refine preserves_bind preserves_get fun written => ?_
  exact preserves_ite (preserves_pure ()) (preserves_throw _)

theorem createDirAll_eq_ok
    {host : Host} {directory : Place} {written : List FileWrite}
    (creates : host.createsDir written directory = true) :
    createDirAll host directory written = .ok () written := by
  change
    (if host.createsDir written directory then return else
      (throw _ : Program Unit)) written = _
  rw [if_pos creates]
  rfl

theorem eq_of_createDirAll_eq_ok
    {host : Host} {directory : Place} {written after : List FileWrite}
    (created : createDirAll host directory written = .ok () after) :
    after = written := by
  change
    (if host.createsDir written directory then return else
      (throw _ : Program Unit)) written = _ at created
  split at created
  · exact (pure_eq_ok.1 created).2.symm
  · exact (throw_ne_ok created).elim

theorem isWritten_save
    (host : Host) (hashes : AcpiHashes) {written : List FileWrite}
    (before : IsWritten ccelData outputDir written) :
    IsWritten ccelData outputDir
      (worldAfter (AcpiHashes.save host hashes outputDir written)) := by
  rw [AcpiHashes.save, write_eq]
  split
  · exact before
  · split
    · intro file member
      rcases List.mem_append.1 member with earlier | now
      · exact before file earlier
      · exact Or.inl ⟨hashes, List.mem_singleton.1 now⟩
    · exact before

/-- The command writes the digests and the variables that it comes to. -/
theorem isWritten_cmdExtractPlatform (host : Host) :
    IsWritten ccelData outputDir
      (worldAfter (cmdExtractPlatform host ccelData outputDir [])) := by
  have none : IsWritten ccelData outputDir [] := List.forall_mem_nil _
  refine
    preserves_bind (preserves_createDirAll host outputDir) (fun _ => ?_) [] none
  refine preserves_bind_of_ok (preserves_ofExcept _) ?_
  intro _ acpi saved _ extracted before
  have acpiRead := (ofExcept_eq_ok.1 extracted).1
  refine
    preserves_bind (fun _ => isWritten_save host acpi) (fun _ => ?_) saved
      before
  refine preserves_bind_of_ok (preserves_ofExcept _) ?_
  intro _ events logged _ parsed before
  have eventsRead := (ofExcept_eq_ok.1 parsed).1
  refine
    preserves_bind (preserves_createDirAll host _) (fun _ => ?_) logged before
  intro written before file member
  rcases mem_forM_extractVariable member with earlier | ⟨found, inside, same⟩
  · exact before file earlier
  · refine Or.inr ⟨found, ?_, same⟩
    rw [reachedIn, acpiRead, eventsRead]
    exact inside

def permissiveHost : Host where
  createsDir _ _ := true
  writes _ _ _ := true

theorem acpiFileName_notMem : '\x00' ∉ acpiFileName.toList := by decide

/-- A host that lets everything be made has the command come to its loop. -/
theorem cmdExtractPlatform_eq_forM_permissiveHost
    {hashes : AcpiHashes} {events : List CcelEvent}
    (acpi : AcpiHashes.extractFromCcel ccelData = .ok hashes)
    (parsed : parseCcel ccelData = .ok events) :
    cmdExtractPlatform permissiveHost ccelData outputDir [] =
      events.forM (extractVariable permissiveHost outputDir)
        [acpiWrite outputDir hashes] := by
  have saved :
      AcpiHashes.save permissiveHost hashes outputDir [] =
        .ok () [acpiWrite outputDir hashes] := by
    rw [AcpiHashes.save, write_eq, if_neg acpiFileName_notMem]
    rfl
  rw [cmdExtractPlatform, bind_of_ok (createDirAll_eq_ok rfl),
    bind_of_ok (ofExcept_eq_ok.2 ⟨acpi, rfl⟩), bind_of_ok saved,
    bind_of_ok (ofExcept_eq_ok.2 ⟨parsed, rfl⟩),
    bind_of_ok (createDirAll_eq_ok rfl)]

/-- With a host that lets everything be made, all of them are written. -/
theorem worldAfter_cmdExtractPlatform_permissiveHost
    {hashes : AcpiHashes} {events : List CcelEvent}
    (acpi : AcpiHashes.extractFromCcel ccelData = .ok hashes)
    (parsed : parseCcel ccelData = .ok events) :
    worldAfter (cmdExtractPlatform permissiveHost ccelData outputDir []) =
      acpiWrite outputDir hashes ::
        (reached events).map (Logged.fileWrite outputDir) := by
  rw [cmdExtractPlatform_eq_forM_permissiveHost acpi parsed,
    worldAfter_forM_of_permissive fun _ _ _ => rfl]
  rfl

theorem exists_of_mem_reachedIn
    {logged : Logged} (member : logged ∈ reachedIn ccelData) :
    ∃ hashes events,
      AcpiHashes.extractFromCcel ccelData = .ok hashes ∧
        parseCcel ccelData = .ok events ∧ logged ∈ reached events := by
  rw [reachedIn] at member
  split at member
  · next hashes events acpi parsed => exact ⟨hashes, events, acpi, parsed, member⟩
  · exact absurd member List.not_mem_nil

/-- A variable that the command comes to has its file written by some host. -/
theorem mem_permissiveHost
    {logged : Logged} (member : logged ∈ reachedIn ccelData) :
    logged.fileWrite outputDir ∈
      worldAfter (cmdExtractPlatform permissiveHost ccelData outputDir []) := by
  rcases exists_of_mem_reachedIn member with
    ⟨hashes, events, acpi, parsed, inside⟩
  rw [worldAfter_cmdExtractPlatform_permissiveHost acpi parsed]
  exact List.mem_cons_of_mem _ (List.mem_map_of_mem inside)

/-! ## Where a file is -/

theorem fileEnding_notMem : '/' ∉ fileEnding.toList := by decide

theorem path_fileWrite (logged : Logged) :
    (logged.fileWrite outputDir).path =
      directoryOf (bootDir outputDir) logged.name ++
        [lastSegment logged.name ++ fileEnding] :=
  resolve_append fileEnding_notMem (by decide) _ _

theorem path_acpiWrite (hashes : AcpiHashes) :
    (acpiWrite outputDir hashes).path = outputDir ++ [acpiFileName] := by
  change resolve outputDir ("acpi_hashes" ++ ".txt") = _
  rw [resolve_append (by decide) (by decide), directoryOf_of_notMem (by decide)]
  rfl

theorem ne_acpiFileName (front : String) :
    front ++ fileEnding ≠ acpiFileName := by
  intro same
  have letters := congrArg (fun text => text.toList.reverse.head?) same
  rw [String.toList_append, List.reverse_append] at letters
  change some 'n' = some 't' at letters
  exact absurd (Option.some.inj letters) (by decide)

/-- A file of a variable is where it should be if its directories lead back. -/
theorem inside_iff (logged : Logged) :
    ((logged.fileWrite outputDir).path = outputDir ++ [acpiFileName] ∨
        ∃ name,
          (logged.fileWrite outputDir).path = bootDir outputDir ++ [name]) ↔
      directoryOf (bootDir outputDir) logged.name = bootDir outputDir := by
  rw [path_fileWrite]
  constructor
  · rintro (acpi | ⟨name, boot⟩)
    · have ends := (List.append_inj' acpi rfl).2
      exact absurd (List.head_eq_of_cons_eq ends) (ne_acpiFileName _)
    · exact (List.append_inj' boot rfl).1
  · intro back
    exact Or.inr ⟨_, by rw [back]⟩

end

/--
The command writes below its output directory, and each variable's file once,
whatever lets it, exactly if the names of the variables stay.
-/
theorem forall_contained_iff (ccelData : Bytes) (outputDir : Place) :
    (∀ host,
        Contained outputDir
          (worldAfter (cmdExtractPlatform host ccelData outputDir []))) ↔
      NamesStay ccelData outputDir := by
  constructor
  · intro contained
    have all := contained permissiveHost
    have leadBack :
        ∀ logged ∈ reachedIn ccelData,
          directoryOf (bootDir outputDir) logged.name = bootDir outputDir :=
      fun logged member =>
        (inside_iff logged).1 (all.inside _ (mem_permissiveHost member))
    refine { leadBack, apart := ?_ }
    intro left leftMember right rightMember names same
    refine
      all.apart _ (mem_permissiveHost leftMember) _
        (mem_permissiveHost rightMember) left.event right.event rfl rfl names ?_
    rw [path_fileWrite, path_fileWrite, leadBack left leftMember,
      leadBack right rightMember, same]
  · intro stay host
    have written :
        IsWritten ccelData outputDir
          (worldAfter (cmdExtractPlatform host ccelData outputDir [])) :=
      isWritten_cmdExtractPlatform host
    constructor
    · intro file member
      rcases written file member with ⟨hashes, rfl⟩ | ⟨logged, inside, rfl⟩
      · exact Or.inl (path_acpiWrite hashes)
      · exact (inside_iff logged).2 (stay.leadBack logged inside)
    · intro left leftMember right rightMember leftEvent rightEvent leftSource
        rightSource names same
      rcases written left leftMember with ⟨hashes, rfl⟩ | ⟨one, oneInside, rfl⟩
      · cases leftSource
      · rcases written right rightMember with
          ⟨hashes, rfl⟩ | ⟨other, otherInside, rfl⟩
        · cases rightSource
        · cases leftSource
          cases rightSource
          rw [path_fileWrite, path_fileWrite] at same
          have files := List.head_eq_of_cons_eq (List.append_inj' same rfl).2
          refine stay.apart one oneInside other otherInside names ?_
          exact
            String.toList_injective
              (List.append_cancel_right
                (by
                  rw [← String.toList_append, ← String.toList_append]
                  exact congrArg String.toList files))

/-! ## A name that climbs out -/

theorem onlyDigest_le :
    ([{ algorithm := .sha384, digest := Block.zero 48 }] :
      List TaggedDigest).length ≤ maxDigestAlgorithms.toNat := by
  decide

theorem noMrIndexMax : (1 : UInt32) ≠ 0xFFFFFFFF := by decide

theorem noMrIndexZero : (1 : UInt32) ≠ 0 := by decide

/-- A record of RTMR[0] with a digest of zeros. -/
def guestRecord
    (eventType : UInt32) (eventData : Bytes)
    (short : eventData.length < 2 ^ 32) : LogRecord where
  mrIndex := 1
  eventType
  digests := [{ algorithm := .sha384, digest := Block.zero 48 }]
  eventData
  digests_le := onlyDigest_le
  data_lt := short
  mrIndex_ne := noMrIndexMax
  continues := fun terminates => noMrIndexZero terminates.2.1

theorem noData_lt : ([] : Bytes).length < 2 ^ 32 := by decide

/-- A separator and three ACPI tables, which boot variables may follow. -/
def acpiRecords : List LogRecord :=
  [4, 0x0a, 0x0a, 0x0a].map fun eventType =>
    guestRecord eventType [] noData_lt

def emptyHeader : SpecIdHeader where
  pcrIndex := Block.zero 4
  digest := Block.zero 20
  body := []
  body_lt := emptyBody_lt

/-- A variable of the value 7. -/
def sampleVariable (name : String) : EfiVariables.Variable where
  guid := Block.zero 16
  name
  value := [7]

/-- A name that leads out of the output directory. -/
def climbingName : String := "../../climbed"

theorem climbingMessage_lt :
    (sampleVariable climbingName).message.length < 2 ^ 32 := by
  decide +kernel

def climbingLog : EventLog where
  header := emptyHeader
  records :=
    acpiRecords ++
      [guestRecord 0x80000002 (sampleVariable climbingName).message
        climbingMessage_lt]
  few := by decide +kernel

/-- The file of a variable is written beside the output directory. -/
theorem not_contained_climbingLog :
    ((worldAfter
        (cmdExtractPlatform permissiveHost climbingLog.encode
          ["home", "out"] [])).map (·.path) =
        [["home", "out", "acpi_hashes.txt"], ["home", "climbed.bin"]]) ∧
      ¬ ∀ (log : Bytes) (host : Host) (outputDir : Place),
        Contained outputDir
          (worldAfter (cmdExtractPlatform host log outputDir [])) := by
  have parsed := parseCcel_encode climbingLog .empty
  rw [LogTail.encode, List.append_nil] at parsed
  have acpi :
      AcpiHashes.extractFromCcel climbingLog.encode =
        .ok
          { loaderHash := List.replicate 48 0, rsdpHash := List.replicate 48 0,
            tablesHash := List.replicate 48 0 } := by
    rw [AcpiHashes.extractFromCcel, parsed]
    rfl
  have written :=
    @worldAfter_cmdExtractPlatform_permissiveHost climbingLog.encode
      ["home", "out"] _ _ acpi parsed
  have paths :
      (worldAfter
          (cmdExtractPlatform permissiveHost climbingLog.encode
            ["home", "out"] [])).map (·.path) =
        [["home", "out", "acpi_hashes.txt"], ["home", "climbed.bin"]] := by
    rw [written]
    decide +kernel
  refine ⟨paths, fun contained => ?_⟩
  have inside :=
    (contained climbingLog.encode permissiveHost ["home", "out"]).inside
  have climbed :
      ["home", "climbed.bin"] ∈
        (worldAfter
            (cmdExtractPlatform permissiveHost climbingLog.encode
              ["home", "out"] [])).map (·.path) := by
    rw [paths]
    exact List.mem_cons_of_mem _ List.mem_cons_self
  rcases List.mem_map.1 climbed with ⟨file, member, same⟩
  rcases inside file member with acpiFile | ⟨name, bootFile⟩
  · rw [same] at acpiFile
    exact absurd (congrArg List.length acpiFile) (by decide)
  · rw [same] at bootFile
    exact absurd (congrArg List.length bootFile) (by simp [bootDir])

end Confos.Tdx.ExtractPlatform
