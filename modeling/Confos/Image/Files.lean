import Confos.Image.Manifest
import Confos.Library.Effects

/-!
# The sealed directory

The directory a build leaves behind: `manifest.json` and the other files by
name.  Every operation of a command on it may fail, and a failing write may
leave part of its bytes; which operations fail is a schedule that the command
works through.
-/

namespace Confos.Image.Files

open Confos.Library.ByteStrings
open Confos.Library.Effects
open Confos.Image.Manifest

/-- `manifest.json`: absent, not a manifest of this schema, or a manifest. -/
inductive ManifestFile where
  | missing
  | garbled
  | holds (manifest : BuildManifest)
deriving DecidableEq, Repr

/-- The directory, with every file but the manifest as bytes. -/
structure OutputDir where
  present : Bool := true
  manifest : ManifestFile := .missing
  files : String → Option Bytes := fun _ => none

namespace OutputDir

def setFile (dir : OutputDir) (name : String) (bytes : Bytes) : OutputDir :=
  { dir with files := Function.update dir.files name (some bytes) }

def setManifest (dir : OutputDir) (manifest : ManifestFile) : OutputDir :=
  { dir with manifest }

@[simp]
theorem setManifest_manifest (dir : OutputDir) (manifest : ManifestFile) :
    (dir.setManifest manifest).manifest = manifest :=
  rfl

theorem setFile_files_self (dir : OutputDir) (name : String) (bytes : Bytes) :
    (dir.setFile name bytes).files name = some bytes :=
  Function.update_self ..

theorem setFile_files_of_ne
    (dir : OutputDir) {name other : String} (bytes : Bytes)
    (different : other ≠ name) :
    (dir.setFile name bytes).files other = dir.files other :=
  Function.update_of_ne different ..

end OutputDir

/-- How one operation fails: at once, or after some bytes have been written. -/
inductive Fault where
  | refused
  | torn (left : Bytes)
deriving DecidableEq, Repr

/--
What a command sees: the directory, the file at its `--firmware` path, and
the outcome of the operations to come, which all succeed once it is used up.
-/
structure World where
  dir : OutputDir
  firmwareFile : Option Bytes := none
  faults : List (Option Fault) := []

abbrev Program := EStateM String World

def takeFault : Program (Option Fault) :=
  modifyGet fun world =>
    match world.faults with
    | [] => (none, world)
    | fault :: faults => (fault, { world with faults })

def World.setFile (world : World) (name : String) (bytes : Bytes) : World :=
  { world with dir := world.dir.setFile name bytes }

def World.setManifest (world : World) (manifest : ManifestFile) : World :=
  { world with dir := world.dir.setManifest manifest }

def readFile (name : String) : Program Bytes := do
  match ← takeFault with
  | some _ => throw s!"failed to read from file {name}"
  | none =>
      match (← get).dir.files name with
      | some bytes => return bytes
      | none => throw s!"failed to open file {name}"

/-- Read the file at the `--firmware` path. -/
def readFirmware (path : String) : Program Bytes := do
  match ← takeFault with
  | some _ => throw s!"failed to read from file {path}"
  | none =>
      match (← get).firmwareFile with
      | some bytes => return bytes
      | none => throw s!"failed to open file {path}"

def writeFile (name : String) (bytes : Bytes) : Program Unit := do
  match ← takeFault with
  | some .refused => throw s!"failed to open file {name}"
  | some (.torn left) =>
      modify (·.setFile name left)
      throw s!"failed to write to file {name}"
  | none => modify (·.setFile name bytes)

def fileExists (name : String) : Program Bool := do
  return ((← get).dir.files name).isSome

/-- `read_manifest`, which takes no version but its own. -/
def readManifest (dir : String) : Program BuildManifest := do
  match ← takeFault with
  | some _ => throw "failed to read from file manifest.json"
  | none =>
      match (← get).dir.manifest with
      | .missing => throw "failed to open file manifest.json"
      | .garbled => throw "manifest.json is not a manifest"
      | .holds manifest =>
          if manifest.version ≠ manifestVersion then
            throw s!"manifest at {dir}/manifest.json is version {manifest.version} (this build of confos speaks v{manifestVersion}). Rebuild with the current confos."
          else
            return manifest

/-- A manifest cut short is no JSON. -/
def writeManifest (manifest : BuildManifest) : Program Unit := do
  match ← takeFault with
  | some .refused => throw "failed to open file manifest.json"
  | some (.torn _) =>
      modify (·.setManifest .garbled)
      throw "failed to write to file manifest.json"
  | none => modify (·.setManifest (.holds manifest))

/-! ## What a successful operation did -/

theorem takeFault_eq_ok
    {world after : World} {fault : Option Fault}
    (ran : takeFault world = .ok fault after) :
    after.dir = world.dir ∧ after.firmwareFile = world.firmwareFile := by
  rcases world with ⟨dir, firmwareFile, _ | ⟨first, rest⟩⟩
  · cases ran
    exact ⟨rfl, rfl⟩
  · cases ran
    exact ⟨rfl, rfl⟩

/-- What an operation did that fails at any fault. -/
theorem eq_ok_of_refusing
    {next : Option Fault → Program α} {world after : World} {result : α}
    (refuses : ∀ fault, ∃ problem, next (some fault) = throw problem)
    (ran : (takeFault >>= next) world = .ok result after) :
    ∃ here, here.dir = world.dir ∧
      here.firmwareFile = world.firmwareFile ∧
        next none here = .ok result after := by
  rcases bind_eq_ok.1 ran with ⟨fault, here, took, continued⟩
  rcases takeFault_eq_ok took with ⟨sameDir, sameFirmware⟩
  cases fault with
  | none => exact ⟨here, sameDir, sameFirmware, continued⟩
  | some fault =>
      rcases refuses fault with ⟨problem, refused⟩
      rw [refused] at continued
      exact (throw_ne_ok continued).elim

theorem readFile_eq_ok
    {name : String} {world after : World} {bytes : Bytes}
    (ran : readFile name world = .ok bytes after) :
    world.dir.files name = some bytes ∧ after.dir = world.dir ∧
      after.firmwareFile = world.firmwareFile := by
  rw [readFile] at ran
  rcases eq_ok_of_refusing (fun _ => ⟨_, rfl⟩) ran with
    ⟨here, sameDir, sameFirmware, continued⟩
  rcases bind_eq_ok.1 continued with ⟨current, there, got, final⟩
  cases got
  cases found : here.dir.files name with
  | none =>
      simp only [found] at final
      exact (throw_ne_ok final).elim
  | some contents =>
      simp only [found] at final
      rcases pure_eq_ok.1 final with ⟨rfl, rfl⟩
      rw [← sameDir]
      exact ⟨found, rfl, sameFirmware⟩

theorem readFirmware_eq_ok
    {path : String} {world after : World} {bytes : Bytes}
    (ran : readFirmware path world = .ok bytes after) :
    world.firmwareFile = some bytes ∧ after.dir = world.dir ∧
      after.firmwareFile = world.firmwareFile := by
  rw [readFirmware] at ran
  rcases eq_ok_of_refusing (fun _ => ⟨_, rfl⟩) ran with
    ⟨here, sameDir, sameFirmware, continued⟩
  rcases bind_eq_ok.1 continued with ⟨current, there, got, final⟩
  cases got
  cases found : here.firmwareFile with
  | none =>
      simp only [found] at final
      exact (throw_ne_ok final).elim
  | some contents =>
      simp only [found] at final
      rcases pure_eq_ok.1 final with ⟨rfl, rfl⟩
      rw [← sameFirmware]
      exact ⟨found, sameDir, rfl⟩

theorem writeFile_eq_ok
    {name : String} {bytes : Bytes} {world after : World}
    (ran : writeFile name bytes world = .ok () after) :
    after.dir = world.dir.setFile name bytes ∧
      after.firmwareFile = world.firmwareFile := by
  rw [writeFile] at ran
  rcases bind_eq_ok.1 ran with ⟨fault, here, took, continued⟩
  rcases takeFault_eq_ok took with ⟨sameDir, sameFirmware⟩
  rcases fault with _ | _ | left
  · cases continued
    rw [← sameDir]
    exact ⟨rfl, sameFirmware⟩
  · exact (throw_ne_ok continued).elim
  · rcases bind_eq_ok.1 continued with ⟨_, _, -, thrown⟩
    exact (throw_ne_ok thrown).elim

/-- Looking for a file answers whether it is there. -/
theorem fileExists_eq (name : String) (world : World) :
    fileExists name world =
      .ok (world.dir.files name).isSome world := rfl

theorem fileExists_eq_ok
    {name : String} {world after : World} {found : Bool}
    (ran : fileExists name world = .ok found after) :
    found = (world.dir.files name).isSome ∧ after = world := by
  cases ran
  exact ⟨rfl, rfl⟩

theorem readManifest_eq_ok
    {dir : String} {world after : World} {manifest : BuildManifest}
    (ran : readManifest dir world = .ok manifest after) :
    world.dir.manifest = .holds manifest ∧ after.dir = world.dir ∧
      after.firmwareFile = world.firmwareFile := by
  rw [readManifest] at ran
  rcases eq_ok_of_refusing (fun _ => ⟨_, rfl⟩) ran with
    ⟨here, sameDir, sameFirmware, continued⟩
  rcases bind_eq_ok.1 continued with ⟨current, there, got, final⟩
  cases got
  cases found : here.dir.manifest with
  | missing =>
      simp only [found] at final
      exact (throw_ne_ok final).elim
  | garbled =>
      simp only [found] at final
      exact (throw_ne_ok final).elim
  | holds stored =>
      simp only [found] at final
      rcases guard_eq_ok.1 final with ⟨-, returned⟩
      rcases pure_eq_ok.1 returned with ⟨rfl, rfl⟩
      rw [← sameDir]
      exact ⟨found, rfl, sameFirmware⟩

theorem writeManifest_eq_ok
    {manifest : BuildManifest} {world after : World}
    (ran : writeManifest manifest world = .ok () after) :
    after.dir = world.dir.setManifest (.holds manifest) := by
  rw [writeManifest] at ran
  rcases bind_eq_ok.1 ran with ⟨fault, here, took, continued⟩
  rcases takeFault_eq_ok took with ⟨sameDir, -⟩
  rcases fault with _ | _ | left
  · cases continued
    rw [← sameDir]
    rfl
  · exact (throw_ne_ok continued).elim
  · rcases bind_eq_ok.1 continued with ⟨_, _, -, thrown⟩
    exact (throw_ne_ok thrown).elim

/-! ## Which operations leave a part of the directory alone -/

section

variable {Part : Type} {part : OutputDir → Part}

theorem leaves_takeFault :
    Leaves (fun world => part world.dir) takeFault := by
  rintro seen ⟨dir, firmwareFile, _ | ⟨first, rest⟩⟩ same
  · exact same
  · exact same

theorem leaves_readFile (name : String) :
    Leaves (fun world => part world.dir) (readFile name) := by
  apply leaves_bind leaves_takeFault
  intro fault
  cases fault with
  | some fault => exact leaves_throw _
  | none =>
      apply leaves_bind leaves_get
      intro world
      cases world.dir.files name with
      | none => exact leaves_throw _
      | some bytes => exact leaves_pure bytes

theorem leaves_readFirmware (path : String) :
    Leaves (fun world => part world.dir) (readFirmware path) := by
  apply leaves_bind leaves_takeFault
  intro fault
  cases fault with
  | some fault => exact leaves_throw _
  | none =>
      apply leaves_bind leaves_get
      intro world
      cases world.firmwareFile with
      | none => exact leaves_throw _
      | some bytes => exact leaves_pure bytes

theorem leaves_writeFile
    {name : String}
    (kept : ∀ dir bytes, part (dir.setFile name bytes) = part dir)
    (bytes : Bytes) :
    Leaves (fun world => part world.dir) (writeFile name bytes) := by
  apply leaves_bind leaves_takeFault
  intro fault
  rcases fault with _ | _ | left
  · exact leaves_modify fun world => kept world.dir bytes
  · exact leaves_throw _
  · apply leaves_bind
    · exact leaves_modify fun world => kept world.dir left
    · intro _
      exact leaves_throw _

theorem leaves_fileExists (name : String) :
    Leaves (fun world => part world.dir) (fileExists name) := by
  apply leaves_bind leaves_get
  intro world
  exact leaves_pure _

theorem leaves_readManifest (dir : String) :
    Leaves (fun world => part world.dir) (readManifest dir) := by
  apply leaves_bind leaves_takeFault
  intro fault
  cases fault with
  | some fault => exact leaves_throw _
  | none =>
      apply leaves_bind leaves_get
      intro world
      cases world.dir.manifest with
      | missing => exact leaves_throw _
      | garbled => exact leaves_throw _
      | holds manifest => exact leaves_ite (leaves_throw _) (leaves_pure _)

theorem leaves_writeManifest
    (kept : ∀ dir manifest, part (dir.setManifest manifest) = part dir)
    (manifest : BuildManifest) :
    Leaves (fun world => part world.dir) (writeManifest manifest) := by
  apply leaves_bind leaves_takeFault
  intro fault
  rcases fault with _ | _ | left
  · exact leaves_modify fun world => kept world.dir _
  · exact leaves_throw _
  · apply leaves_bind
    · exact leaves_modify fun world => kept world.dir _
    · intro _
      exact leaves_throw _

end

/-- The manifest of a world's directory. -/
def manifestOf (world : World) : ManifestFile :=
  world.dir.manifest

/-- A write of the manifest that fails leaves it alone or cuts it short. -/
theorem manifestOf_writeManifest
    (manifest : BuildManifest) (world : World) :
    writeManifest manifest world = .ok () (worldAfter (writeManifest manifest world)) ∨
      manifestOf (worldAfter (writeManifest manifest world)) =
          manifestOf world ∨
        manifestOf (worldAfter (writeManifest manifest world)) =
          .garbled := by
  rcases world with ⟨dir, firmwareFile, _ | ⟨_ | _ | left, rest⟩⟩
  · exact Or.inl rfl
  · exact Or.inl rfl
  · exact Or.inr (Or.inl rfl)
  · exact Or.inr (Or.inr rfl)

end Confos.Image.Files
