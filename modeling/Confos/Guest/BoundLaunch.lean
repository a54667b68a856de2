import Confos.Guest.Initrd
import Confos.Guest.OciWorkloadLines
import Mathlib.Data.List.Lex

/-!
# What an attested launch runs

The booted system reads its workload from the key file that the initrd leaves,
and pulls and runs the image that the file names; at the same time the hook
measures other containers.  RTMR[3] or HOSTDATA of a quote then tells what the
guest runs, as long as the disk answers both reads of the key alike.
-/

namespace Confos.Guest.BoundLaunch

open Confos.Guest.Initrd
open Confos.Guest.OciWorkload
open Confos.Library.ByteStrings
open Confos.Library.Fallible
open Confos.Library.HashChains
open Confos.Library.Json
open Confos.Library.Machines
open Confos.Library.PythonText
open Confos.Library.Text
open Confos.Tdx.Rtmr
open Confos.Tdx.UkiBinding
open Confos.Tdx.WorkloadHook (cmdRtmr3 measuredImages)
open Confos.Tdx.Workloads

/-! ## The workload service -/

/-- `workload` on a path, where a file may be. -/
def workloadAt (limits : Limits) (pubkey : Option Bytes) : Outcome :=
  match pubkey with
  | none => .none
  | some content =>
      match decode content with
      | none => .uncaught
      | some text => workload limits text

/-- The arguments of a call of `docker`. -/
abbrev Call := List CodePoints

/-- How the calls of one `start` end, and what it finds. -/
structure Attempt where
  pulls : Bool
  /-- Whether `docker rm` can be called; its own status does not count. -/
  removes : Bool
  hasGpuCdiSpec : Bool
  runs : Bool

def pullCall (spec : Workload) : Call :=
  [codesOf "pull", spec.image]

def removeCall : Call :=
  ["rm", "--force", "confos-workload"].map codesOf

/-- The order of `sorted` on pairs of strings. -/
def comesFirst (left right : CodePoints × CodePoints) : Bool :=
  decide (left.1 < right.1) ||
    (left.1 == right.1 && decide (left.2 ≤ right.2))

def runCall (hasGpuCdiSpec : Bool) (spec : Workload) : Call :=
  ["run", "--detach", "--name", "confos-workload", "--network", "host",
      "--restart", "unless-stopped"].map codesOf ++
    (if hasGpuCdiSpec then
      ["--device", "nvidia.com/gpu=all"].map codesOf
    else
      []) ++
      ((spec.env.mergeSort comesFirst).flatMap fun pair =>
        [codesOf "--env", pair.1 ++ codesOf "=" ++ pair.2]) ++
        [codesOf "--", spec.image] ++ spec.command

/-- `start`: its calls, and whether it ends well. -/
def start (attempt : Attempt) (spec : Workload) : List Call × Bool :=
  if attempt.pulls then
    if attempt.removes then
      ([pullCall spec, removeCall, runCall attempt.hasGpuCdiSpec spec],
        attempt.runs)
    else
      ([pullCall spec, removeCall], false)
  else
    ([pullCall spec], false)

/-- `main` with the step `start`. -/
def mainStart (limits : Limits) (pubkey : Option Bytes) (attempt : Attempt) :
    List Call × Bool :=
  match workloadAt limits pubkey with
  | .none => ([], true)
  | .spec spec => start attempt spec
  | .invalid _ => ([], false)
  | .uncaught => ([], false)

/-! ## The guest -/

structure State where
  hooked : Tdx.WorkloadHook.State
  /-- The calls of `docker` so far. -/
  calls : List Call

inductive Action where
  | hooked (action : Tdx.WorkloadHook.Action)
  | attempt (attempt : Attempt)

/-- The guest as the initrd leaves it. -/
def behindBoot (booted : Booted) : State where
  hooked := Tdx.WorkloadHook.behindBoot booted.rtmr3
  calls := []

def Action.hooked? : Action → Option Tdx.WorkloadHook.Action
  | hooked action => some action
  | attempt _ => none

section

variable (fromStr : String → Except String Tdx.WorkloadHook.Value)
variable (sha256 : Bytes → Block 32) (sha384 : Bytes → Block 48)
variable (limits : Limits) (booted : Booted)

def step (state : State) : Action → Option State
  | .hooked action =>
      (Tdx.WorkloadHook.step fromStr sha384 state.hooked action).map
        fun hooked => { state with hooked := hooked }
  | .attempt attempt =>
      some
        { state with
          calls :=
            state.calls ++
              (mainStart limits booted.operatorPubkey attempt).1 }

/-- The images that the hook measures in a run. -/
def imagesOf (actions : List Action) : List String :=
  measuredImages fromStr (actions.filterMap Action.hooked?)

/-! ## The verifier's side -/

/-- `rtmr3 == SHA384(0x00*48 || SHA384(pubkey))` -/
def boundRtmr3 (pubkey : Bytes) : Block 48 :=
  sha384 (List.replicate 48 0 ++ (sha384 pubkey).bytes)

/-- The calls that a workload asks for. -/
def IsCallFor (spec : Workload) (call : Call) : Prop :=
  call = pullCall spec ∨ call = removeCall ∨
    ∃ hasGpuCdiSpec, call = runCall hasGpuCdiSpec spec

/-- The guest calls `docker` for no other workload than that of a file. -/
def CallsFor (pubkey : Option Bytes) (calls : List Call) : Prop :=
  ∀ call ∈ calls,
    ∃ spec, workloadAt limits pubkey = .spec spec ∧ IsCallFor spec call

variable (machine : Machine)

/-- What the boot extends RTMR[3] by. -/
def bootLog : List Bytes :=
  if machine.rtmr3Writable then
    (machine.opkeyDisk.bind (·.hashed)).toList
  else
    []

/-- Everything hashed on the way to RTMR[3] behind a boot and some images. -/
def guestMessages (images : List String) : List Bytes :=
  logMessages sha384 extendMessage (Block.zero 48)
    (bootLog machine ++ images.map utf8Bytes)

end

/-! ## Canonical image texts -/

/-- A key file that is the canonical text of an image. -/
def IsImageText (pubkey : Bytes) : Prop :=
  ∃ reference canonical,
    canonicalImageDigest reference = .ok canonical ∧
      pubkey = utf8Bytes canonical

/-- The characters of a canonical text are printed ASCII behind the hash sign. -/
theorem mem_canonical
    {reference canonical : String}
    (accepted : canonicalImageDigest reference = .ok canonical) :
    ∀ char ∈ canonical.toList, 0x23 < char.toNat ∧ char.toNat < 128 := by
  rcases canonicalImageDigest_eq_ok_iff.1 accepted with ⟨hex, -, isHex, rfl⟩
  have lowered := (isLowerHex_toAsciiLowercase isHex).accepted
  have digit :
      ∀ code < 128,
        isAsciiHexdigit (UInt8.ofNat code) = true → 0x23 < code := by
    decide
  intro char member
  rw [canonicalText, String.toList_append, String.toList_ofList,
    List.mem_append] at member
  rcases member with inStart | inHex
  · have plain :
        digestStart.toList.all (fun char =>
          0x23 < char.toNat && char.toNat < 128) = true := by
      decide
    have inRange := List.all_eq_true.1 plain char inStart
    rw [Bool.and_eq_true, decide_eq_true_iff, decide_eq_true_iff] at inRange
    exact inRange
  · rcases (isSha256Hex_eq_true_iff.1 lowered).2 char inHex with
      ⟨small, isDigit⟩
    exact ⟨digit _ small isDigit, small⟩

/-- A canonical image text names no workload of a launch. -/
theorem workloadAt_of_isImageText
    {limits : Limits} {pubkey : Bytes} (isText : IsImageText pubkey) :
    workloadAt limits (some pubkey) = .none := by
  rcases isText with ⟨reference, canonical, accepted, rfl⟩
  have characters := mem_canonical accepted
  have decoded :
      decode (utf8Bytes canonical) = some canonical.toList := by
    have whole :=
      decode_utf8Bytes_of_ascii fun char member =>
        (characters char member).2
    rwa [String.ofList_toList] at whole
  have unbroken :
      ∀ char ∈ canonical.toList, isLineBreak char = false := by
    intro char member
    have behind := (characters char member).1
    have before := (characters char member).2
    simp only [isLineBreak, Bool.or_eq_false_iff, Bool.and_eq_false_iff,
      decide_eq_false_iff_not]
    omega
  have unmarked : stripStart marker canonical.toList = none := by
    rw [Option.eq_none_iff_forall_ne_some]
    intro rest found
    have whole := stripStart_eq_some_iff.1 found
    have sign : '#' ∈ canonical.toList := by
      rw [whole]
      exact List.mem_append_left _ List.mem_cons_self
    exact absurd (characters _ sign).1 (by decide)
  have oneLine : canonical.toList.splitOn '\n' = [canonical.toList] :=
    List.splitOn_eq_singleton fun member =>
      absurd (characters _ member).1 (by decide)
  have onePiece :
      canonical.toList.splitOnP isOtherBreak = [canonical.toList] := by
    refine List.splitOnP_eq_singleton fun char member => ?_
    rw [isOtherBreak, unbroken char member]
    rfl
  have read : workload limits canonical.toList = .none := by
    rw [workload_eq_none_iff, markerRests, hiddenMarkers, oneLine,
      List.flatMap_singleton, hiddenInLine, onePiece, marked_cons, unmarked]
    exact ⟨rfl, rfl⟩
  rw [workloadAt, decoded]
  exact read

/-- A file with a workload is told apart from the text of an image. -/
theorem not_isImageText_of_spec
    {limits : Limits} {pubkey : Bytes} {spec : Workload}
    (names : workloadAt limits (some pubkey) = .spec spec) :
    ¬ IsImageText pubkey := by
  intro isText
  rw [workloadAt_of_isImageText isText] at names
  cases names

/-! ## Runs -/

section

variable {fromStr : String → Except String Tdx.WorkloadHook.Value}
variable {sha256 : Bytes → Block 32} {sha384 : Bytes → Block 48}
variable {limits : Limits} {machine : Machine} {booted : Booted}

theorem binding_register
    {operatorPubkey : Option Bytes} {rtmr3 : Block 48}
    (binding : Binding sha256 sha384 machine operatorPubkey rtmr3) :
    rtmr3 =
      register sha384 extendMessage (Block.zero 48) (bootLog machine) := by
  cases binding with
  | unbound noDisk =>
      rw [bootLog, noDisk, Option.bind_none, Option.toList_none, ite_self]
      rfl
  | tdx disk staged key attached copied hashed writable =>
      rw [bootLog, if_pos writable, attached, Option.bind_some, hashed]
      rfl
  | snp disk staged key report attached copied hashed notWritable =>
      rw [bootLog, if_neg (Bool.eq_false_iff.1 notWritable)]
      rfl

theorem start_callFor (attempt : Attempt) (spec : Workload) :
    ∀ call ∈ (start attempt spec).1, IsCallFor spec call := by
  intro call member
  have among :
      call ∈
        [pullCall spec, removeCall, runCall attempt.hasGpuCdiSpec spec] := by
    rw [start] at member
    split at member
    · split at member
      · exact member
      · exact List.mem_of_mem_dropLast member
    · exact List.mem_of_mem_take (i := 1) member
  rcases List.mem_cons.1 among with pull | others
  · exact Or.inl pull
  · rcases List.mem_pair.1 others with remove | run
    · exact Or.inr (Or.inl remove)
    · exact Or.inr (Or.inr ⟨_, run⟩)

/-- One `start` calls for the workload of the file alone. -/
theorem mainStart_callsFor (pubkey : Option Bytes) (attempt : Attempt) :
    CallsFor limits pubkey (mainStart limits pubkey attempt).1 := by
  intro call member
  rw [mainStart] at member
  split at member
  · cases member
  · next spec read => exact ⟨spec, read, start_callFor attempt spec call member⟩
  · cases member
  · cases member

variable (fromStr sha384 limits booted) in
/-- What holds behind every run from a boot. -/
structure Behind (taken : List Action) (state : State) : Prop where
  accounted :
    Tdx.WorkloadHook.Accounted fromStr sha384 booted.rtmr3
      (imagesOf fromStr taken) state.hooked.rtmr3 state.hooked.containers
  calls : CallsFor limits booted.operatorPubkey state.calls

theorem behind_step
    {taken : List Action} {action : Action} {before after : State}
    (behind : Behind fromStr sha384 limits booted taken before)
    (stepped : step fromStr sha384 limits booted before action = some after) :
    Behind fromStr sha384 limits booted (taken ++ [action]) after := by
  cases action with
  | hooked action =>
      rcases Option.map_eq_some_iff.1 stepped with ⟨hooked, moved, rfl⟩
      have accounted :=
        Tdx.WorkloadHook.accounted_step behind.accounted moved
      refine ⟨?_, behind.calls⟩
      rw [imagesOf, List.filterMap_append]
      exact accounted
  | attempt attempt =>
      cases stepped
      constructor
      · rw [imagesOf, List.filterMap_append, List.filterMap_cons_none rfl,
          List.filterMap_nil, List.append_nil]
        exact behind.accounted
      · intro call member
        rcases List.mem_append.1 member with earlier | now
        · exact behind.calls call earlier
        · exact mainStart_callsFor _ attempt call now

theorem behind_run
    {actions : List Action} {state : State}
    (ran :
      run (step fromStr sha384 limits booted) (behindBoot booted) actions =
        some state) :
    Behind fromStr sha384 limits booted actions state := by
  refine
    run_history_invariant
      (Behind fromStr sha384 limits booted) ?_
      (fun _ _ _ _ _ behind stepped => behind_step behind stepped) ran
  exact
    { accounted := Tdx.WorkloadHook.Accounted.nil
      calls := fun call member => absurd member List.not_mem_nil }

/-- RTMR[3] is the register of the boot and of the measured images. -/
theorem rtmr3_run
    {actions : List Action} {state : State}
    (boots : init machine sha256 sha384 = .ok booted)
    (ran :
      run (step fromStr sha384 limits booted) (behindBoot booted) actions =
        some state) :
    state.hooked.rtmr3 =
      register sha384 extendMessage (Block.zero 48)
        (bootLog machine ++ (imagesOf fromStr actions).map utf8Bytes) := by
  rw [register_append, ← binding_register (handsOver_of_init boots).binding]
  exact (behind_run ran).accounted.register

/-- What the hook measures is the canonical text of an image. -/
theorem isImageText_of_mem_imagesOf
    {actions : List Action} {image : String}
    (measured : image ∈ imagesOf fromStr actions) :
    IsImageText (utf8Bytes image) := by
  rcases Tdx.WorkloadHook.canonical_of_mem_measuredImages measured with
    ⟨reference, accepted⟩
  exact ⟨reference, image, accepted, rfl⟩

theorem boundRtmr3_eq (pubkey : Bytes) :
    boundRtmr3 sha384 pubkey =
      register sha384 extendMessage (Block.zero 48) [pubkey] :=
  rfl

/-- What the boot binds is what its disk gave for the hash. -/
theorem attached_of_bootLog
    {pubkey : Bytes} {rest : List Bytes}
    (boots : init machine sha256 sha384 = .ok booted)
    (logged : bootLog machine = pubkey :: rest) :
    rest = [] ∧
      ∃ disk staged,
        machine.opkeyDisk = some disk ∧ disk.hashed = some pubkey ∧
          disk.copied = some staged ∧ booted.operatorPubkey = some staged := by
  have binding := (handsOver_of_init boots).binding
  generalize booted.operatorPubkey = operatorPubkey at binding ⊢
  generalize booted.rtmr3 = rtmr3 at binding
  cases binding with
  | unbound noDisk =>
      rw [bootLog, noDisk, Option.bind_none, Option.toList_none, ite_self]
        at logged
      cases logged
  | tdx disk staged key attached copied hashed writable =>
      rw [bootLog, if_pos writable, attached, Option.bind_some, hashed]
        at logged
      cases logged
      exact ⟨rfl, disk, staged, attached, hashed, copied, rfl⟩
  | snp disk staged key report attached copied hashed notWritable =>
      rw [bootLog, if_neg (Bool.eq_false_iff.1 notWritable)] at logged
      cases logged

/-- A file without a workload leads to no call. -/
theorem eq_nil_of_callsFor
    {pubkey : Option Bytes} {calls : List Call}
    (noWorkload : workloadAt limits pubkey = .none)
    (callsFor : CallsFor limits pubkey calls) : calls = [] := by
  rw [List.eq_nil_iff_forall_not_mem]
  intro call member
  rcases callsFor call member with ⟨spec, names, -⟩
  rw [noWorkload] at names
  cases names

/--
Where RTMR[3] is the one of an operator key, the guest was booted with it: no
other container runs as a workload, and the guest asks `docker` for nothing but
the workload of the key, as long as the disk gave the same key for the file as
for the hash.
-/
theorem launch_of_rtmr3
    {actions : List Action} {state : State} {pubkey : Bytes}
    (boots : init machine sha256 sha384 = .ok booted)
    (ran :
      run (step fromStr sha384 limits booted) (behindBoot booted) actions =
        some state)
    (checked : state.hooked.rtmr3 = boundRtmr3 sha384 pubkey)
    (noImage : ¬ IsImageText pubkey)
    (apart :
      TellsApart sha384 (Block.zero 48)
        {message |
          message ∈ guestMessages sha384 machine (imagesOf fromStr actions) ∨
            message ∈
              logMessages sha384 extendMessage (Block.zero 48) [pubkey]}) :
    (∀ container ∈ state.hooked.started, ¬ container.IsWorkload fromStr) ∧
      ∃ disk staged,
        machine.opkeyDisk = some disk ∧ disk.hashed = some pubkey ∧
          disk.copied = some staged ∧ booted.operatorPubkey = some staged ∧
            (staged = pubkey → CallsFor limits (some pubkey) state.calls) := by
  have behind := behind_run ran
  rw [rtmr3_run boots ran, boundRtmr3_eq] at checked
  have log :
      bootLog machine ++ (imagesOf fromStr actions).map utf8Bytes = [pubkey] :=
    apart.register_injOn extendMessage_injective
      (fun _ member => Or.inl member) (fun _ member => Or.inr member) checked
  cases booting : bootLog machine with
  | nil =>
      rw [booting, List.nil_append, List.map_eq_singleton_iff] at log
      rcases log with ⟨image, images, same⟩
      have measured : image ∈ imagesOf fromStr actions := by
        rw [images]
        exact List.mem_singleton_self image
      exact
        absurd (same ▸ isImageText_of_mem_imagesOf measured) noImage
  | cons key rest =>
      rcases attached_of_bootLog boots booting with
        ⟨rfl, disk, staged, attached, hashed, copied, left⟩
      rw [booting] at log
      injection log with sameKey noMore
      rw [sameKey] at hashed
      have noImages : imagesOf fromStr actions = [] :=
        List.map_eq_nil_iff.1 noMore
      have accounted := behind.accounted
      rw [noImages] at accounted
      constructor
      · intro container started workload
        rcases accounted.started.2 container started workload with
          ⟨image, impossible, -⟩
        cases impossible
      · refine ⟨disk, staged, attached, hashed, copied, left, ?_⟩
        rintro rfl
        rw [← left]
        exact behind.calls

/--
Where HOSTDATA is the hash of an operator key, the guest was booted with the
key or with none: without one it asks `docker` for nothing, and else for
nothing but the workload of the key, as long as the disk gave the same key for
the file as for the hash.
-/
theorem launch_of_hostData
    {actions : List Action} {state : State} {pubkey report : Bytes}
    (boots : init machine sha256 sha384 = .ok booted)
    (ran :
      run (step fromStr sha384 limits booted) (behindBoot booted) actions =
        some state)
    (onSnp : machine.rtmr3Writable = false)
    (reported : machine.outblob = some report)
    (checked : hostData report = (sha256 pubkey).bytes)
    (noCollision :
      Set.InjOn sha256
        {key |
          key = pubkey ∨ some key = machine.opkeyDisk.bind (·.hashed)}) :
    (booted.operatorPubkey = none ∧ state.calls = []) ∨
      ∃ disk staged,
        machine.opkeyDisk = some disk ∧ disk.hashed = some pubkey ∧
          disk.copied = some staged ∧ booted.operatorPubkey = some staged ∧
            (staged = pubkey → CallsFor limits (some pubkey) state.calls) := by
  have calls := (behind_run ran).calls
  have binding := (handsOver_of_init boots).binding
  generalize booted.operatorPubkey = operatorPubkey at binding calls ⊢
  generalize booted.rtmr3 = rtmr3 at binding
  cases binding with
  | unbound noDisk =>
      exact Or.inl ⟨rfl, eq_nil_of_callsFor rfl calls⟩
  | tdx disk staged key attached copied hashed writable =>
      rw [onSnp] at writable
      cases writable
  | snp disk staged key other attached copied hashed notWritable blob committed =>
      rw [reported] at blob
      cases blob
      have same : key = pubkey :=
        noCollision (Or.inr (by rw [attached, Option.bind_some, hashed]))
          (Or.inl rfl) (Block.ext (committed.symm.trans checked))
      rw [same] at hashed
      refine Or.inr ⟨disk, staged, attached, hashed, copied, rfl, ?_⟩
      rintro rfl
      exact calls

end

/-! ## A launch with a workload -/

/-- A key and a workload with this digit in its digest. -/
def sampleKey (digit : Char) : Bytes :=
  utf8Bytes
    ("ssh-ed25519 AAAA me\n# confos-oci-workload/v1 \x7b\"image\":\"localhost/app@sha256:" ++
      String.ofList (List.replicate 64 digit) ++
        "\",\"command\":[\"serve\"],\"env\":\x7b\"B\":\"2\",\"A\":\"1\"\x7d\x7d\n")

def sampleWorkload (digit : Char) : Workload where
  image := codesOf ("localhost/app@sha256:" ++ String.ofList (List.replicate 64 digit))
  command := [codesOf "serve"]
  env := [(codesOf "B", codesOf "2"), (codesOf "A", codesOf "1")]

/-- A hash of thirty-two bytes. -/
def countBytes32 (bytes : Bytes) : Block 32 :=
  ⟨(countBytes bytes).bytes.take 32, by simp⟩

theorem workloadAt_sampleKey :
    workloadAt defaultLimits (some (sampleKey '0')) =
      .spec (sampleWorkload '0') := by
  decide +kernel

/-- A report with the hash of a key in HOSTDATA. -/
def sampleReport (pubkey : Bytes) : Bytes :=
  List.replicate 192 0 ++ (countBytes32 pubkey).bytes

theorem hostData_sampleReport (pubkey : Bytes) :
    hostData (sampleReport pubkey) = (countBytes32 pubkey).bytes := by
  rw [hostData, sampleReport, slice, List.drop_left' List.length_replicate,
    List.take_of_length_le (Block.length_eq _).le]

/-- On TDX, with a key for the file and one for the hash. -/
def tdxMachine (copied hashed : Bytes) : Machine :=
  sampleMachine none (some (sampleDisk copied hashed))

theorem exists_boots_tdx (copied hashed : Bytes) :
    ∃ booted,
      init (tdxMachine copied hashed) countBytes32 countBytes = .ok booted ∧
        booted.operatorPubkey = some copied ∧
          booted.rtmr3 = boundRtmr3 countBytes hashed := by
  rcases
    exists_boots_sample countBytes32 countBytes
      (binds_sample copied hashed none fun _ reported => nomatch reported) with
    ⟨booted, boots⟩
  refine ⟨booted, boots, ?_⟩
  have binding := (handsOver_of_init boots).binding
  generalize booted.operatorPubkey = operatorPubkey at binding ⊢
  generalize booted.rtmr3 = rtmr3 at binding ⊢
  cases binding with
  | unbound noDisk => cases noDisk
  | tdx disk staged key attached given known =>
      cases attached
      cases given
      cases known
      exact ⟨rfl, rfl⟩
  | snp disk staged key report attached given known notWritable =>
      cases notWritable

/-- Two starts of the service, the first of which cannot pull. -/
def sampleActions : List Action :=
  [.attempt ⟨false, true, false, true⟩, .attempt ⟨true, true, false, true⟩]

/-- The calls of these starts. -/
def sampleCalls (pubkey : Option Bytes) : List Call :=
  (mainStart defaultLimits pubkey ⟨false, true, false, true⟩).1 ++
    (mainStart defaultLimits pubkey ⟨true, true, false, true⟩).1

def noJson (_ : String) : Except String Tdx.WorkloadHook.Value :=
  .error "expected value at line 1 column 1"

theorem run_sample (booted : Booted) :
    run (step noJson countBytes defaultLimits booted) (behindBoot booted)
        sampleActions =
      some
        { hooked := Tdx.WorkloadHook.behindBoot booted.rtmr3
          calls := sampleCalls booted.operatorPubkey } :=
  rfl

theorem launch_of_rtmr3_sample :
    ∃ booted state,
      init (tdxMachine (sampleKey '0') (sampleKey '0')) countBytes32
            countBytes = .ok booted ∧
        run (step noJson countBytes defaultLimits booted) (behindBoot booted)
            sampleActions = some state ∧
          state.calls.length = 4 ∧
            CallsFor defaultLimits (some (sampleKey '0')) state.calls := by
  rcases exists_boots_tdx (sampleKey '0') (sampleKey '0') with
    ⟨booted, boots, kept, bound⟩
  refine ⟨booted, _, boots, run_sample booted, ?_, ?_⟩
  · rw [kept]
    change (sampleCalls (some (sampleKey '0'))).length = 4
    decide +kernel
  · rcases
      launch_of_rtmr3 boots (run_sample booted) bound
        (not_isImageText_of_spec workloadAt_sampleKey)
        (tellsApart_of_forall (by decide +kernel)) with
      ⟨-, disk, staged, attached, -, copied, -, calls⟩
    cases attached
    cases copied
    exact calls rfl

/-- A disk that changes in between: RTMR[3] is that of one key, and the guest
runs the workload of another. -/
theorem calls_of_two_keys :
    ∃ booted state,
      init (tdxMachine (sampleKey '1') (sampleKey '0')) countBytes32
            countBytes = .ok booted ∧
        run (step noJson countBytes defaultLimits booted) (behindBoot booted)
            sampleActions = some state ∧
          state.hooked.rtmr3 = boundRtmr3 countBytes (sampleKey '0') ∧
            ¬ CallsFor defaultLimits (some (sampleKey '0')) state.calls := by
  rcases exists_boots_tdx (sampleKey '1') (sampleKey '0') with
    ⟨booted, boots, kept, bound⟩
  refine ⟨booted, _, boots, run_sample booted, bound, ?_⟩
  rw [kept]
  intro callsFor
  have pulled :
      pullCall (sampleWorkload '1') ∈ sampleCalls (some (sampleKey '1')) := by
    decide +kernel
  rcases callsFor _ pulled with ⟨spec, names, call⟩
  rw [workloadAt_sampleKey] at names
  cases names
  rcases call with pull | remove | ⟨hasGpuCdiSpec, run⟩
  · exact absurd pull (by decide +kernel)
  · exact absurd remove (by decide +kernel)
  · revert run
    cases hasGpuCdiSpec with
    | false => decide +kernel
    | true => decide +kernel

theorem launch_of_hostData_sample :
    ∃ booted state,
      init
            (sampleMachine (some (sampleReport (sampleKey '0')))
              (some (sampleDisk (sampleKey '0') (sampleKey '0'))))
            countBytes32 countBytes = .ok booted ∧
        run (step noJson countBytes defaultLimits booted) (behindBoot booted)
            sampleActions = some state ∧
          ((booted.operatorPubkey = none ∧ state.calls = []) ∨
            CallsFor defaultLimits (some (sampleKey '0')) state.calls) := by
  rcases
    exists_boots_sample countBytes32 countBytes
      (binds_sample (sampleKey '0') (sampleKey '0')
        (some (sampleReport (sampleKey '0'))) fun blob reported => by
          cases reported
          exact hostData_sampleReport _) with
    ⟨booted, boots⟩
  refine ⟨booted, _, boots, run_sample booted, ?_⟩
  have noCollision :
      Set.InjOn countBytes32
        {key | key = sampleKey '0' ∨ some key = some (sampleKey '0')} := by
    rintro left (rfl | same) right (rfl | other) -
    · rfl
    · exact (Option.some.inj other).symm
    · exact Option.some.inj same
    · exact (Option.some.inj same).trans (Option.some.inj other).symm
  rcases
    launch_of_hostData boots (run_sample booted) rfl rfl
      (hostData_sampleReport _) noCollision with
    unbound | ⟨disk, staged, attached, -, copied, -, calls⟩
  · exact Or.inl unbound
  · cases attached
    cases copied
    exact Or.inr (calls rfl)

end Confos.Guest.BoundLaunch
