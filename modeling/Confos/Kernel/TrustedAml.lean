import Confos.Library.ByteStrings
import Confos.Library.Machines

/-!
# The trusted AML gate

The hooks that the trusted AML patch puts into ACPICA and the boot path, as
the steps of a system whose host chooses every table, index and signature and
whose surrounding kernel chooses the outcome of everything the hooks call.
Between the entry of a load and its end other hooks may run, since module-level
AML can ask for further loads.

The fields below the comment line of `System` are not in the kernel.  They
record the bytes that were handed to the namespace parser, the statuses that
loads ended with and what the hooked functions returned.
-/

namespace Confos.Kernel.TrustedAml

open Confos.Library.ByteStrings
open Confos.Library.Machines

/-! ## Tables -/

inductive AcpiStatus where
  | ok
  | access
  | alreadyExists
  | other (code : UInt32)
deriving DecidableEq, Repr

/-- The memory that a table pointer leads to. -/
structure Table where
  memory : Nat → UInt8

def Table.read (table : Table) (count : Nat) : Bytes :=
  (List.range count).map table.memory

/-- The length field of the header. -/
def Table.length (table : Table) : Nat :=
  ofLeBytes [table.memory 4, table.memory 5, table.memory 6, table.memory 7]

/-- The bytes that the namespace parser reads. -/
def Table.bytes (table : Table) : Bytes :=
  table.read table.length

/-- `dsdt_aml_code`, which a build check requires to hold a header. -/
structure BuiltInDsdt where
  dsdtAmlCode : Bytes
  header_fits : 36 ≤ dsdtAmlCode.length

def BuiltInDsdt.checksum (dsdt : BuiltInDsdt) : UInt8 :=
  dsdt.dsdtAmlCode.foldl (· + ·) 0

/-! ## The root table -/

/-- One entry of the root table and what the kernel finds behind it. -/
structure RootEntry where
  address : UInt64
  signature : Option Bytes
  installed : Option Table

def definitionBlockSignatures : List Bytes :=
  ["DSDT", "SSDT", "PSDT", "OSDT"].map utf8Bytes

/-- `acpi_tb_is_host_aml`; an entry that cannot be mapped is none. -/
def RootEntry.isHostAml (entry : RootEntry) : Bool :=
  match entry.signature with
  | none => false
  | some signature => signature ∈ definitionBlockSignatures

/-- The tables that the loop of `acpi_tb_parse_root_table` installs. -/
def parseRootTable (entries : List RootEntry) : List Table :=
  entries.filterMap fun entry =>
    if entry.address = 0 ∨ entry.isHostAml = true then none
    else entry.installed

/-! ## The system -/

/-- The hooked functions. -/
inductive Call where
  | nsLoadTable
  | installAndLoadTable
  | unloadTable
  | installMethod
deriving DecidableEq, Repr

structure System where
  trustedAmlStarted : Bool
  trustedAmlLoaded : Bool
  acpiDisabled : Bool
  tables : List Table
  dsdtIndex : Nat
  parsing : Nat
  initializing : Nat
  checked : Bool
  userspace : Bool
  panicked : Option String
  -- what was observed
  parses : List Bytes
  completions : List AcpiStatus
  returns : List (Call × AcpiStatus)

/-- Before the first hook runs. -/
def System.boot : System where
  trustedAmlStarted := false
  trustedAmlLoaded := false
  acpiDisabled := false
  tables := []
  dsdtIndex := 0xFFFFFFFF
  parsing := 0
  initializing := 0
  checked := false
  userspace := false
  panicked := none
  parses := []
  completions := []
  returns := []

def System.panic (system : System) (message : String) : System :=
  { system with panicked := some message }

def System.returned (system : System) (call : Call) (status : AcpiStatus) :
    System :=
  { system with returns := system.returns ++ [(call, status)] }

/-! ## The hooks -/

/-- `acpi_os_prepare_trusted_aml`: the status and the flag, or a panic. -/
def prepareTrustedAml (dsdt : BuiltInDsdt) (trustedAmlStarted : Bool)
    (table : Table) : Except String (AcpiStatus × Bool) :=
  if table.length ≠ dsdt.dsdtAmlCode.length ∨
      table.read dsdt.dsdtAmlCode.length ≠ dsdt.dsdtAmlCode then
    .error "Trusted AML: primary DSDT is not the built-in table"
  else if dsdt.checksum ≠ 0 then
    .error "Trusted AML: invalid built-in DSDT checksum"
  else if trustedAmlStarted then
    .ok (.access, trustedAmlStarted)
  else
    .ok (.ok, true)

/-- `acpi_os_complete_trusted_aml`. -/
def System.completeTrustedAml (system : System) (status : AcpiStatus) :
    System :=
  if status ≠ .ok then
    system.panic "Trusted AML: built-in DSDT initialization failed"
  else
    { system with trustedAmlLoaded := true }

/-- `acpi_os_check_trusted_aml`, called at the end of the initcalls. -/
def System.checkTrustedAml (system : System) : System :=
  if system.trustedAmlLoaded = false ∨ system.acpiDisabled = true then
    system.panic "Trusted AML: required built-in DSDT unavailable"
  else
    { system with checked := true }

/-- How the functions end that `acpi_ns_load_table` calls before it parses. -/
structure LoadOutcome where
  getTable : AcpiStatus
  isTableLoaded : Bool
  allocateOwnerId : AcpiStatus
deriving DecidableEq, Repr

/-- What follows the hook, up to the call of the namespace parser. -/
def System.enterParser
    (system : System) (table : Table) (outcome : LoadOutcome) : System :=
  if outcome.isTableLoaded then
    system.returned .nsLoadTable .alreadyExists
  else if outcome.allocateOwnerId ≠ .ok then
    system.returned .nsLoadTable outcome.allocateOwnerId
  else
    { system with
      parsing := system.parsing + 1
      parses := system.parses ++ [table.bytes] }

/-- The hook in `acpi_ns_load_table` once it has the table. -/
def System.admitTable (dsdt : BuiltInDsdt)
    (system : System) (table : Table) (outcome : LoadOutcome) : System :=
  match prepareTrustedAml dsdt system.trustedAmlStarted table with
  | .error message => system.panic message
  | .ok (status, trustedAmlStarted) =>
      let system := { system with trustedAmlStarted }
      if status ≠ .ok then
        system.returned .nsLoadTable status
      else
        system.enterParser table outcome

/-- `acpi_ns_load_table`, up to the call of the namespace parser. -/
def System.nsLoadTable (dsdt : BuiltInDsdt)
    (system : System) (tableIndex : Nat) (outcome : LoadOutcome) : System :=
  if tableIndex ≠ system.dsdtIndex then
    system.returned .nsLoadTable .access
  else if outcome.getTable ≠ .ok then
    system.returned .nsLoadTable outcome.getTable
  else
    match system.tables[tableIndex]? with
    | none => system.returned .nsLoadTable (.other 0x1001)
    | some table => system.admitTable dsdt table outcome

/-- The parser returns; a table it accepts is initialized. -/
def System.endParse (system : System) (status : AcpiStatus) : System :=
  if status ≠ .ok then
    { system with parsing := system.parsing - 1 }.returned
      .nsLoadTable status
  else
    { system with
      parsing := system.parsing - 1
      initializing := system.initializing + 1 }

/-- The initialization of the table's objects returns. -/
def System.endInitialize (system : System) (status : AcpiStatus) : System :=
  let completed :=
    { system with
      initializing := system.initializing - 1
      completions := system.completions ++ [status] }.completeTrustedAml
        status
  if completed.panicked.isSome then completed
  else completed.returned .nsLoadTable status

/-! ## Steps -/

inductive Step where
  | parseRootTable (entries : List RootEntry)
  | writeTables (tables : List Table) (dsdtIndex : Nat)
  | setAcpiDisabled (acpiDisabled : Bool)
  | nsLoadTable (tableIndex : Nat) (outcome : LoadOutcome)
  | endParse (status : AcpiStatus)
  | endInitialize (status : AcpiStatus)
  | installAndLoadTable (table : Table)
  | unloadTable (tableIndex : Nat)
  | installMethod (buffer : Table)
  | checkTrustedAml
  | startUserspace

/-- What a kernel that has not panicked does in one step. -/
def System.act (dsdt : BuiltInDsdt) (system : System) :
    Step → Option System
  | .parseRootTable entries =>
      some { system with tables := system.tables ++ parseRootTable entries }
  | .writeTables tables dsdtIndex =>
      some { system with tables, dsdtIndex }
  | .setAcpiDisabled acpiDisabled =>
      some { system with acpiDisabled }
  | .nsLoadTable tableIndex outcome =>
      some (system.nsLoadTable dsdt tableIndex outcome)
  | .endParse status =>
      if 0 < system.parsing then some (system.endParse status) else none
  | .endInitialize status =>
      if 0 < system.initializing then some (system.endInitialize status)
      else none
  | .installAndLoadTable _ =>
      some (system.returned .installAndLoadTable .access)
  | .unloadTable _ => some (system.returned .unloadTable .access)
  | .installMethod _ => some (system.returned .installMethod .access)
  | .checkTrustedAml => some system.checkTrustedAml
  | .startUserspace =>
      if system.checked then some { system with userspace := true } else none

def step (dsdt : BuiltInDsdt) (system : System) (action : Step) :
    Option System :=
  if system.panicked.isSome then none else system.act dsdt action

/-! ## What every step keeps -/

/-- The calls that must never succeed. -/
def Call.IsDenied (call : Call) : Prop :=
  call ≠ .nsLoadTable

/-- What holds of every system that the hooks guard. -/
structure Gated (dsdt : BuiltInDsdt) (system : System) : Prop where
  parses_builtIn :
    ∀ bytes ∈ system.parses,
      bytes = dsdt.dsdtAmlCode ∧ dsdt.checksum = 0
  parses_length : system.parses.length ≤ 1
  parses_started : system.trustedAmlStarted = false → system.parses = []
  loads_le :
    system.parsing + system.initializing + system.completions.length ≤
      system.parses.length
  loaded_completed :
    system.trustedAmlLoaded = true → system.completions = [.ok]
  denied :
    ∀ call status, (call, status) ∈ system.returns → call.IsDenied →
      status = .access

theorem gated_boot (dsdt : BuiltInDsdt) : Gated dsdt System.boot where
  parses_builtIn := by
    intro bytes member
    cases member
  parses_length := Nat.zero_le _
  parses_started := fun _ => rfl
  loads_le := le_rfl
  loaded_completed := by
    intro loaded
    cases loaded
  denied := by
    intro call status member
    cases member

section

variable {dsdt : BuiltInDsdt} {system : System}

/-- The host's tables and the course of the boot do not matter. -/
theorem Gated.frame
    (gated : Gated dsdt system) (acpiDisabled : Bool) (tables : List Table)
    (dsdtIndex : Nat) (checked userspace : Bool) (panicked : Option String) :
    Gated dsdt
      { system with
        acpiDisabled, tables, dsdtIndex, checked, userspace, panicked } :=
  ⟨gated.parses_builtIn, gated.parses_length, gated.parses_started,
    gated.loads_le, gated.loaded_completed, gated.denied⟩

theorem Gated.panic (gated : Gated dsdt system) (message : String) :
    Gated dsdt (system.panic message) :=
  gated.frame _ _ _ _ _ _

theorem Gated.returned
    (gated : Gated dsdt system) {call : Call} {status : AcpiStatus}
    (allowed : call.IsDenied → status = .access) :
    Gated dsdt (system.returned call status) where
  parses_builtIn := gated.parses_builtIn
  parses_length := gated.parses_length
  parses_started := gated.parses_started
  loads_le := gated.loads_le
  loaded_completed := gated.loaded_completed
  denied := by
    intro returned ended member denied
    rcases List.mem_append.1 member with earlier | last
    · exact gated.denied returned ended earlier denied
    · cases List.mem_singleton.1 last
      exact allowed denied

theorem Gated.returned_nsLoadTable
    (gated : Gated dsdt system) (status : AcpiStatus) :
    Gated dsdt (system.returned .nsLoadTable status) :=
  gated.returned fun denied => absurd rfl denied

/-- A table that passes the comparison is read as the built-in bytes. -/
theorem bytes_of_prepareTrustedAml
    {trustedAmlStarted started : Bool} {table : Table} {status : AcpiStatus}
    (prepared :
      prepareTrustedAml dsdt trustedAmlStarted table =
        .ok (status, started)) :
    table.bytes = dsdt.dsdtAmlCode ∧ dsdt.checksum = 0 ∧ started = true ∧
      (status = .ok ↔ trustedAmlStarted = false) := by
  rw [prepareTrustedAml] at prepared
  split at prepared
  · cases prepared
  · rename_i compared
    rcases not_or.1 compared with ⟨sameLength, sameBytes⟩
    have read : table.bytes = dsdt.dsdtAmlCode := by
      rw [Table.bytes, not_not.1 sameLength]
      exact not_not.1 sameBytes
    split at prepared
    · cases prepared
    · rename_i checksum
      split at prepared
      · rename_i already
        cases prepared
        exact ⟨read, not_not.1 checksum, already, by simp [already]⟩
      · rename_i first
        cases prepared
        exact ⟨read, not_not.1 checksum, rfl, by simpa using first⟩

theorem Gated.admitTable
    (gated : Gated dsdt system) (table : Table) (outcome : LoadOutcome) :
    Gated dsdt (system.admitTable dsdt table outcome) := by
  rw [System.admitTable]
  split
  · exact gated.panic _
  · rename_i status started prepared
    rcases bytes_of_prepareTrustedAml prepared with
      ⟨read, checksum, rfl, first⟩
    have started : Gated dsdt { system with trustedAmlStarted := true } :=
      ⟨gated.parses_builtIn, gated.parses_length, by simp, gated.loads_le,
        gated.loaded_completed, gated.denied⟩
    dsimp only
    split
    · exact started.returned_nsLoadTable _
    · rename_i admitted
      -- the flag was clear, so nothing has been parsed yet
      have fresh : system.parses = [] :=
        gated.parses_started (first.1 (not_not.1 admitted))
      rw [System.enterParser]
      split
      · exact started.returned_nsLoadTable _
      · split
        · exact started.returned_nsLoadTable _
        · constructor
          · intro bytes member
            rw [fresh, List.nil_append] at member
            exact ⟨(List.mem_singleton.1 member).trans read, checksum⟩
          · simp [fresh]
          · intro impossible
            cases impossible
          · have count := gated.loads_le
            simp only [fresh, List.length_nil, Nat.le_zero] at count
            simp [fresh]
            omega
          · exact gated.loaded_completed
          · exact gated.denied

theorem Gated.nsLoadTable
    (gated : Gated dsdt system) (tableIndex : Nat) (outcome : LoadOutcome) :
    Gated dsdt (system.nsLoadTable dsdt tableIndex outcome) := by
  rw [System.nsLoadTable]
  split
  · exact gated.returned_nsLoadTable _
  · split
    · exact gated.returned_nsLoadTable _
    · split
      · exact gated.returned_nsLoadTable _
      · exact gated.admitTable _ _

theorem Gated.endParse
    (gated : Gated dsdt system) (parsing : 0 < system.parsing)
    (status : AcpiStatus) :
    Gated dsdt (system.endParse status) := by
  have count := gated.loads_le
  rw [System.endParse]
  split
  · apply Gated.returned_nsLoadTable
    exact
      ⟨gated.parses_builtIn, gated.parses_length, gated.parses_started,
        by dsimp only; omega, gated.loaded_completed, gated.denied⟩
  · exact
      ⟨gated.parses_builtIn, gated.parses_length, gated.parses_started,
        by dsimp only; omega, gated.loaded_completed, gated.denied⟩

theorem Gated.endInitialize
    (gated : Gated dsdt system) (initializing : 0 < system.initializing)
    (status : AcpiStatus) :
    Gated dsdt (system.endInitialize status) := by
  have count := gated.loads_le
  have once := gated.parses_length
  -- the load in progress is the only one, so none has completed before
  have none_completed : system.completions = [] := by
    apply List.length_eq_zero_iff.1
    omega
  have not_loaded : system.trustedAmlLoaded = false := by
    apply Bool.eq_false_iff.2
    intro loaded
    rw [gated.loaded_completed loaded] at none_completed
    cases none_completed
  have counted :
      system.parsing + (system.initializing - 1) +
          (system.completions ++ [status]).length ≤
        system.parses.length := by
    rw [none_completed]
    simp
    omega
  rw [System.endInitialize, System.completeTrustedAml]
  dsimp only
  by_cases completed : status = .ok
  · have loaded :
        Gated dsdt
          { system with
            initializing := system.initializing - 1
            completions := system.completions ++ [status]
            trustedAmlLoaded := true } :=
      ⟨gated.parses_builtIn, gated.parses_length, gated.parses_started,
        counted, fun _ => by simp [none_completed, completed], gated.denied⟩
    rw [if_neg (not_not.2 completed)]
    split
    · exact loaded
    · exact loaded.returned_nsLoadTable _
  · have failed :
        Gated dsdt
          { system with
            initializing := system.initializing - 1
            completions := system.completions ++ [status] } :=
      ⟨gated.parses_builtIn, gated.parses_length, gated.parses_started,
        counted, by simp [not_loaded], gated.denied⟩
    rw [if_pos completed]
    exact failed.panic _

/-- What one step can do; the hooks that refuse all do the same. -/
theorem step_cases
    {action : Step} {after : System}
    (stepped : step dsdt system action = some after) :
    (∃ acpiDisabled tables dsdtIndex,
        after = { system with acpiDisabled, tables, dsdtIndex }) ∨
      (∃ call, after = system.returned call .access) ∨
      (∃ tableIndex outcome,
        after = system.nsLoadTable dsdt tableIndex outcome) ∨
      (∃ status, 0 < system.parsing ∧ after = system.endParse status) ∨
      (∃ status,
        0 < system.initializing ∧ after = system.endInitialize status) ∨
      (action = .checkTrustedAml ∧ after = system.checkTrustedAml) ∨
      (system.checked = true ∧ after = { system with userspace := true }) := by
  rw [step] at stepped
  split at stepped
  · cases stepped
  · cases action with
    | parseRootTable entries =>
        cases stepped
        exact Or.inl ⟨_, _, _, rfl⟩
    | writeTables tables dsdtIndex =>
        cases stepped
        exact Or.inl ⟨_, _, _, rfl⟩
    | setAcpiDisabled acpiDisabled =>
        cases stepped
        exact Or.inl ⟨_, _, _, rfl⟩
    | nsLoadTable tableIndex outcome =>
        cases stepped
        exact Or.inr (Or.inr (Or.inl ⟨_, _, rfl⟩))
    | endParse status =>
        rcases Option.ite_none_right_eq_some.1 stepped with ⟨parsing, ended⟩
        cases ended
        exact Or.inr (Or.inr (Or.inr (Or.inl ⟨_, parsing, rfl⟩)))
    | endInitialize status =>
        rcases Option.ite_none_right_eq_some.1 stepped with
          ⟨initializing, ended⟩
        cases ended
        exact
          Or.inr (Or.inr (Or.inr (Or.inr (Or.inl ⟨_, initializing, rfl⟩))))
    | installAndLoadTable table =>
        cases stepped
        exact Or.inr (Or.inl ⟨_, rfl⟩)
    | unloadTable tableIndex =>
        cases stepped
        exact Or.inr (Or.inl ⟨_, rfl⟩)
    | installMethod buffer =>
        cases stepped
        exact Or.inr (Or.inl ⟨_, rfl⟩)
    | checkTrustedAml =>
        cases stepped
        exact
          Or.inr (Or.inr (Or.inr (Or.inr (Or.inr (Or.inl ⟨rfl, rfl⟩)))))
    | startUserspace =>
        rcases Option.ite_none_right_eq_some.1 stepped with
          ⟨checked, started⟩
        cases started
        exact
          Or.inr (Or.inr (Or.inr (Or.inr (Or.inr (Or.inr ⟨checked, rfl⟩)))))

theorem Gated.step
    (gated : Gated dsdt system) {action : Step} {after : System}
    (stepped : step dsdt system action = some after) :
    Gated dsdt after := by
  rcases step_cases stepped with
    ⟨_, _, _, rfl⟩ | ⟨call, rfl⟩ | ⟨tableIndex, outcome, rfl⟩ |
      ⟨status, parsing, rfl⟩ | ⟨status, initializing, rfl⟩ | ⟨-, rfl⟩ |
      ⟨-, rfl⟩
  · exact gated.frame _ _ _ _ _ _
  · exact gated.returned fun _ => rfl
  · exact gated.nsLoadTable tableIndex outcome
  · exact gated.endParse parsing status
  · exact gated.endInitialize initializing status
  · rw [System.checkTrustedAml]
    split
    · exact gated.panic _
    · exact gated.frame _ _ _ _ _ _
  · exact gated.frame _ _ _ _ _ _

theorem gated_run
    {actions : List Step}
    (ran : run (step dsdt) System.boot actions = some system) :
    Gated dsdt system :=
  run_invariant (Gated dsdt) (gated_boot dsdt)
    (fun _ _ _ gated stepped => gated.step stepped) ran

/-! ## The way to userspace -/

theorem System.nsLoadTable_boots
    (tableIndex : Nat) (outcome : LoadOutcome) :
    (system.nsLoadTable dsdt tableIndex outcome).checked = system.checked ∧
      (system.nsLoadTable dsdt tableIndex outcome).userspace =
        system.userspace := by
  rw [System.nsLoadTable]
  split
  · exact ⟨rfl, rfl⟩
  · split
    · exact ⟨rfl, rfl⟩
    · split
      · exact ⟨rfl, rfl⟩
      · rw [System.admitTable]
        split
        · exact ⟨rfl, rfl⟩
        · dsimp only
          split
          · exact ⟨rfl, rfl⟩
          · rw [System.enterParser]
            split_ifs
            · exact ⟨rfl, rfl⟩
            · exact ⟨rfl, rfl⟩
            · exact ⟨rfl, rfl⟩

theorem System.endParse_boots (status : AcpiStatus) :
    (system.endParse status).checked = system.checked ∧
      (system.endParse status).userspace = system.userspace := by
  rw [System.endParse]
  split
  · exact ⟨rfl, rfl⟩
  · exact ⟨rfl, rfl⟩

theorem System.endInitialize_boots (status : AcpiStatus) :
    (system.endInitialize status).checked = system.checked ∧
      (system.endInitialize status).userspace = system.userspace := by
  rw [System.endInitialize, System.completeTrustedAml]
  split
  · split
    · exact ⟨rfl, rfl⟩
    · exact ⟨rfl, rfl⟩
  · split
    · exact ⟨rfl, rfl⟩
    · exact ⟨rfl, rfl⟩

/-- How far the boot has come changes at the check and at its end only. -/
theorem step_boots
    {action : Step} {after : System}
    (stepped : step dsdt system action = some after) :
    (after.checked = system.checked ∧ after.userspace = system.userspace) ∨
      (action = .checkTrustedAml ∧ system.trustedAmlLoaded = true ∧
        system.acpiDisabled = false ∧ after.checked = true) ∨
      (system.checked = true ∧ after.checked = true) := by
  rcases step_cases stepped with
    ⟨_, _, _, rfl⟩ | ⟨call, rfl⟩ | ⟨tableIndex, outcome, rfl⟩ |
      ⟨status, -, rfl⟩ | ⟨status, -, rfl⟩ | ⟨same, rfl⟩ | ⟨checked, rfl⟩
  · exact Or.inl ⟨rfl, rfl⟩
  · exact Or.inl ⟨rfl, rfl⟩
  · exact Or.inl (System.nsLoadTable_boots tableIndex outcome)
  · exact Or.inl (System.endParse_boots status)
  · exact Or.inl (System.endInitialize_boots status)
  · rw [System.checkTrustedAml]
    split
    · exact Or.inl ⟨rfl, rfl⟩
    · rename_i passed
      rcases not_or.1 passed with ⟨loaded, enabled⟩
      exact
        Or.inr
          (Or.inl
            ⟨same, Bool.not_eq_false _ ▸ loaded,
              Bool.not_eq_true _ ▸ enabled, rfl⟩)
  · exact Or.inr (Or.inr ⟨checked, checked⟩)

/-- A run that passes the check with the table loaded and ACPI enabled. -/
def PassesCheck (dsdt : BuiltInDsdt) (actions : List Step) : Prop :=
  ∃ before after earlier,
    actions = before ++ .checkTrustedAml :: after ∧
      run (step dsdt) System.boot before = some earlier ∧
        earlier.trustedAmlLoaded = true ∧ earlier.acpiDisabled = false

theorem PassesCheck.concat
    {actions : List Step} (passed : PassesCheck dsdt actions)
    (action : Step) :
    PassesCheck dsdt (actions ++ [action]) := by
  rcases passed with ⟨before, after, earlier, rfl, ran, loaded, enabled⟩
  exact
    ⟨before, after ++ [action], earlier, by simp, ran, loaded, enabled⟩

theorem passesCheck_of_run
    {actions : List Step}
    (ran : run (step dsdt) System.boot actions = some system) :
    (system.userspace = true → system.checked = true) ∧
      (system.checked = true → PassesCheck dsdt actions) := by
  refine
    run_history_invariant
      (fun taken system =>
        (system.userspace = true → system.checked = true) ∧
          (system.checked = true → PassesCheck dsdt taken))
      ⟨by simp [System.boot], by simp [System.boot]⟩ ?_ ran
  intro taken action before after earlier holds stepped
  rcases step_boots stepped with ⟨checked, userspace⟩ | passes | ⟨old, new⟩
  · rw [checked, userspace]
    exact ⟨holds.1, fun was => (holds.2 was).concat action⟩
  · rcases passes with ⟨rfl, loaded, enabled, checked⟩
    exact
      ⟨fun _ => checked,
        fun _ => ⟨taken, [], before, rfl, earlier, loaded, enabled⟩⟩
  · exact ⟨fun _ => new, fun _ => (holds.2 old).concat action⟩

/--
Whatever the host supplies and in whatever order the hooks run, the namespace
parser reads the built-in table once at most and nothing else, every other way
to change the namespace is refused, and userspace is behind a check that found
that one load complete and ACPI enabled.
-/
theorem run_admits_builtIn_only
    {actions : List Step}
    (ran : run (step dsdt) System.boot actions = some system) :
    (system.parses = [] ∨
        system.parses = [dsdt.dsdtAmlCode] ∧ dsdt.checksum = 0) ∧
      (∀ call status, (call, status) ∈ system.returns → call.IsDenied →
        status = .access) ∧
      (system.userspace = true →
        ∃ before after earlier,
          actions = before ++ .checkTrustedAml :: after ∧
            run (step dsdt) System.boot before = some earlier ∧
              earlier.parses = [dsdt.dsdtAmlCode] ∧
                earlier.completions = [.ok] ∧
                  earlier.acpiDisabled = false) := by
  have single :
      ∀ {system : System}, Gated dsdt system →
        system.parses = [] ∨
          system.parses = [dsdt.dsdtAmlCode] ∧ dsdt.checksum = 0 := by
    intro system gated
    rcases Nat.le_one_iff_eq_zero_or_eq_one.1 gated.parses_length with
      none_parsed | one_parsed
    · exact Or.inl (List.length_eq_zero_iff.1 none_parsed)
    · rcases List.length_eq_one_iff.1 one_parsed with ⟨bytes, parsed⟩
      rcases gated.parses_builtIn bytes (by simp [parsed]) with
        ⟨builtIn, checksum⟩
      exact Or.inr ⟨builtIn ▸ parsed, checksum⟩
  have gated := gated_run ran
  refine ⟨single gated, gated.denied, ?_⟩
  intro userspace
  have reached := passesCheck_of_run ran
  rcases reached.2 (reached.1 userspace) with
    ⟨before, after, earlier, split, earlierRan, loaded, enabled⟩
  have earlierGated := gated_run earlierRan
  have completed := earlierGated.loaded_completed loaded
  refine ⟨before, after, earlier, split, earlierRan, ?_, completed, enabled⟩
  rcases single earlierGated with none_parsed | ⟨parsed, -⟩
  · have count := earlierGated.loads_le
    rw [completed, none_parsed] at count
    exact absurd (Nat.le_trans (Nat.le_add_left _ _) count) (by simp)
  · exact parsed

/-! ## A failure between the two flags -/

/-- A load was let in, none is under way, and the table is not loaded. -/
structure Stuck (system : System) : Prop where
  started : system.trustedAmlStarted = true
  not_parsing : system.parsing = 0
  not_initializing : system.initializing = 0
  not_loaded : system.trustedAmlLoaded = false
  not_checked : system.checked = false
  not_userspace : system.userspace = false

theorem Stuck.frame
    (stuck : Stuck system) (acpiDisabled : Bool) (tables : List Table)
    (dsdtIndex : Nat) (panicked : Option String)
    (returns : List (Call × AcpiStatus)) :
    Stuck
      { system with acpiDisabled, tables, dsdtIndex, panicked, returns } :=
  ⟨stuck.started, stuck.not_parsing, stuck.not_initializing,
    stuck.not_loaded, stuck.not_checked, stuck.not_userspace⟩

theorem Stuck.nsLoadTable
    (stuck : Stuck system) (tableIndex : Nat) (outcome : LoadOutcome) :
    Stuck (system.nsLoadTable dsdt tableIndex outcome) := by
  rw [System.nsLoadTable]
  split
  · exact stuck.frame _ _ _ _ _
  · split
    · exact stuck.frame _ _ _ _ _
    · split
      · exact stuck.frame _ _ _ _ _
      · rw [System.admitTable]
        split
        · exact stuck.frame _ _ _ _ _
        · rename_i status started prepared
          rcases bytes_of_prepareTrustedAml prepared with ⟨-, -, rfl, first⟩
          have refused : status ≠ .ok := by
            intro admitted
            exact absurd (stuck.started.symm.trans (first.1 admitted))
              (by decide)
          dsimp only
          rw [if_pos refused, ← stuck.started]
          exact stuck.frame _ _ _ _ _

theorem Stuck.step
    (stuck : Stuck system) {action : Step} {after : System}
    (stepped : step dsdt system action = some after) :
    Stuck after := by
  rcases step_cases stepped with
    ⟨_, _, _, rfl⟩ | ⟨call, rfl⟩ | ⟨tableIndex, outcome, rfl⟩ |
      ⟨status, parsing, rfl⟩ | ⟨status, initializing, rfl⟩ | ⟨-, rfl⟩ |
      ⟨checked, rfl⟩
  · exact stuck.frame _ _ _ _ _
  · exact stuck.frame _ _ _ _ _
  · exact stuck.nsLoadTable tableIndex outcome
  · exact absurd stuck.not_parsing (Nat.ne_of_gt parsing)
  · exact absurd stuck.not_initializing (Nat.ne_of_gt initializing)
  · rw [System.checkTrustedAml, if_pos (Or.inl stuck.not_loaded)]
    exact stuck.frame _ _ _ _ _
  · exact absurd (stuck.not_checked.symm.trans checked) (by decide)

/-- After a load that was let in has failed, no boot reaches userspace. -/
theorem Stuck.never_userspace
    (stuck : Stuck system) {actions : List Step} {after : System}
    (ran : run (TrustedAml.step dsdt) system actions = some after) :
    after.userspace = false ∧
      (TrustedAml.step dsdt after .checkTrustedAml).all
        (·.panicked.isSome) := by
  have still : Stuck after :=
    run_invariant Stuck stuck (fun _ _ _ kept stepped => kept.step stepped)
      ran
  refine ⟨still.not_userspace, ?_⟩
  rw [TrustedAml.step]
  split
  · rfl
  · rw [System.act, System.checkTrustedAml, if_pos (Or.inl still.not_loaded)]
    rfl

end

/-! ## A boot that reaches userspace -/

/-- A header and nothing behind it; the bytes sum to zero. -/
def sampleDsdt : BuiltInDsdt where
  dsdtAmlCode :=
    [0, 0, 0, 0, 36, 0, 0, 0, 0, 220] ++ List.replicate 26 0
  header_fits := by decide

def sampleTable : Table where
  memory := fun offset => sampleDsdt.dsdtAmlCode.getD offset 0xFF

/-- The host asks for a second load while the first is under way. -/
def sampleBoot : List Step :=
  let healthy : LoadOutcome :=
    { getTable := .ok, isTableLoaded := false, allocateOwnerId := .ok }
  [.writeTables [sampleTable, sampleTable] 0, .nsLoadTable 0 healthy,
    .nsLoadTable 1 healthy, .nsLoadTable 0 healthy, .endParse .ok,
    .endInitialize .ok, .installMethod sampleTable, .checkTrustedAml,
    .startUserspace]

theorem run_admits_builtIn_only_sample :
    ∃ system before after earlier,
      run (step sampleDsdt) System.boot sampleBoot = some system ∧
        system.parses = [sampleDsdt.dsdtAmlCode] ∧
          sampleBoot = before ++ .checkTrustedAml :: after ∧
            run (step sampleDsdt) System.boot before = some earlier ∧
              earlier.completions = [.ok] := by
  have reached :
      ∃ system,
        run (step sampleDsdt) System.boot sampleBoot = some system ∧
          system.parses ≠ [] ∧ system.userspace = true := by
    refine ⟨_, rfl, ?_, rfl⟩
    decide
  rcases reached with ⟨system, ran, parsed, userspace⟩
  rcases run_admits_builtIn_only ran with ⟨once, -, checked⟩
  rcases checked userspace with
    ⟨before, after, earlier, split, earlierRan, -, completed, -⟩
  rcases once with impossible | ⟨once, -⟩
  · exact absurd impossible parsed
  · exact
      ⟨system, before, after, earlier, ran, once, split, earlierRan,
        completed⟩

end Confos.Kernel.TrustedAml
