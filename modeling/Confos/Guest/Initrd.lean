import Confos.Guest.StateOverlays
import Confos.Library.ShellText
import Confos.Tdx.WorkloadHook

/-!
# The boot of the guest

The initrd opens the root that the command line names, mounts the writable
state, and binds the operator key of a launch before it hands over: on TDX it
extends RTMR[3] by the hash of the key, on SNP it compares the hash with the
report of the machine.  It reads the key twice, once for the file it leaves for
the booted system and once for the hash.
-/

namespace Confos.Guest.Initrd

open Confos.Library.ByteStrings
open Confos.Library.Fallible
open Confos.Library.HashChains
open Confos.Library.ShellText (substituted)
open Confos.Tdx.Rtmr
open Confos.Tdx.UkiBinding
open Confos.Tdx.WorkloadHook (Write)

/-! ## The machine -/

/-- The disk with the label `opkeydata`. -/
structure OpkeyDisk where
  device : String
  /-- `[ -s /opkey/pubkey ]` -/
  hasPubkey : Bool
  /-- What `cp` reads of the key. -/
  copied : Option Bytes
  /-- What the hash command reads of it. -/
  hashed : Option Bytes

/-- What `init` finds. -/
structure Machine where
  /-- Whether a command ends well, by its text. -/
  runs : Bytes → Bool
  cmdline : Bytes
  /-- Whether `/dev/vda2` is there, look by look. -/
  seesRoot : Nat → Bool
  /-- `/sys/block/vd*` in order, each with its `serial`. -/
  disks : List (String × Bytes)
  urandom : Block 64
  kernel : StateOverlays.Kernel
  stateFiles : List (String × Bytes)
  opkeyDisk : Option OpkeyDisk
  /-- `[ -w "$RTMR3" ]` -/
  rtmr3Writable : Bool
  write : Write
  /-- `[ -c /dev/sev-guest ]` -/
  hasSevGuest : Bool
  outblob : Option Bytes

/-- Why a boot stops. -/
inductive Stop where
  | command (text : Bytes)
  | noRootHash
  | invalidRootHash
  | noRootDisk
  | state (stop : StateOverlays.Stop)
  | opkey (problem : String)

/-- What the booted system finds. -/
structure Booted where
  rootHash : Bytes
  /-- The scratch disk and its key, or a file system in memory. -/
  scratch : Option (String × Block 64)
  overlays : StateOverlays.State
  /-- `/run/confai/operator-pubkey` -/
  operatorPubkey : Option Bytes
  rtmr3 : Block 48

/-! ## The root -/

/-- The words of an unquoted `$(cat /proc/cmdline)` without globbing. -/
def words (text : Bytes) : List Bytes :=
  ((text.filter (· ≠ 0)).splitOnP fun byte =>
    StateOverlays.isIfsBlank byte || byte = StateOverlays.newline).filter
      (· ≠ [])

def rootHashStart : Bytes :=
  utf8Bytes "roothash="

/-- The body of the loop over the parameters. -/
def takeRootHash (rootHash param : Bytes) : Bytes :=
  if rootHashStart.isPrefixOf param then
    param.drop rootHashStart.length
  else
    rootHash

/-- `tr '[:upper:]' '[:lower:]'` -/
def toLower (byte : UInt8) : UInt8 :=
  if 0x41 ≤ byte ∧ byte ≤ 0x5A then byte + 0x20 else byte

def isLowerHex (byte : UInt8) : Bool :=
  (0x30 ≤ byte && byte ≤ 0x39) || (0x61 ≤ byte && byte ≤ 0x66)

/-- `^[a-f0-9]{64}([a-f0-9]{32})?([a-f0-9]{32})?$` -/
def isRootHash (rootHash : Bytes) : Bool :=
  rootHash.all isLowerHex &&
    (rootHash.length = 64 || rootHash.length = 96 || rootHash.length = 128)

section

variable (machine : Machine)

/-- A command of the script; under `set -e` a failed one ends the boot. -/
def command (text : Bytes) : Except Stop Unit :=
  if machine.runs text then .ok () else .error (.command text)

def commands (texts : List String) : Except Stop Unit :=
  texts.forM fun text => command machine (utf8Bytes text)

/-- The looks at `/dev/vda2` that the waiting loop takes, one a second. -/
def looksWaiting : Nat → Nat → Nat
  | 0, looks => looks + 1
  | left + 1, looks =>
      if machine.seesRoot looks then
        looks + 1
      else
        looksWaiting left (looks + 1)

/-- The script up to "dm-verity device created". -/
def openRoot : Except Stop Bytes := do
  commands machine
    ["mount -t proc proc /proc", "mount -t sysfs sysfs /sys",
      "mount -t devtmpfs devtmpfs /dev"]
  let rootHash := (words machine.cmdline).foldl takeRootHash []
  if rootHash = [] then
    .error .noRootHash
  else if ¬ isRootHash (rootHash.map toLower) then
    .error .invalidRootHash
  else if ¬ machine.seesRoot (looksWaiting machine 30 0) then
    .error .noRootDisk
  else do
    command machine
      (utf8Bytes "veritysetup open /dev/vda2 root /dev/vda3 " ++
        rootHash.map toLower)
    return rootHash.map toLower

/-! ## The writable state -/

/-- A disk, other than the one of the image, whose `$(cat "$sysdev/serial")` is
that of a scratch disk. -/
def isScratch (disk : String × Bytes) : Bool :=
  disk.1 ≠ "vda" && substituted disk.2 = utf8Bytes "confai-scratch"

/-- `SCRATCH_DEV` -/
def scratchDev : Option String :=
  (machine.disks.find? isScratch).map (·.1)

/-- `mount_state_backing /state` -/
def mountStateBacking : Except Stop (Option (String × Block 64)) :=
  match scratchDev machine with
  | some device => do
      commands machine
        ["mkdir -p /run", "head -c 64 /dev/urandom > /run/scratch.key",
          "cryptsetup open --batch-mode --type plain --cipher aes-xts-plain64 --key-size 512 -d /run/scratch.key /dev/" ++
            device ++ " scratch",
          "mkfs.ext4 -q /dev/mapper/scratch",
          "mount /dev/mapper/scratch /state"]
      return some (device, machine.urandom)
  | none => do
      commands machine
        ["mount -t tmpfs tmpfs /state -o size=2G,nosuid,nodev"]
      return none

/-- The script from the writable state to the minimal runtime directories. -/
def mountState :
    Except Stop (Option (String × Block 64) × StateOverlays.State) := do
  commands machine
    ["mkdir -p /sysroot /state", "mount -o ro /dev/mapper/root /sysroot"]
  let scratch ← mountStateBacking machine
  let overlays ←
    (StateOverlays.mountState machine.kernel machine.stateFiles).mapError .state
  commands machine
    ["mount -t tmpfs tmpfs /sysroot/run -o mode=0755,size=20%,nr_inodes=800k,strictatime,nosuid,nodev",
      "mkdir -p /sysroot/run/dbus /sysroot/var/log/journal"]
  return (scratch, overlays)

/-! ## The operator key -/

/-- `|| fail_opkey` -/
def orFailOpkey (succeeded : Bool) (problem : String) : Except Stop Unit :=
  if succeeded then .ok () else .error (.opkey problem)

/-- Neither empty nor with a character that is no lower-case hexadecimal digit. -/
def isHexText (text : String) : Bool :=
  text ≠ "" &&
    text.toList.all fun char =>
      ('0' ≤ char && char ≤ '9') || ('a' ≤ char && char ≤ 'f')

/-- The key in the file system of the booted system. -/
def stagePubkey (disk : OpkeyDisk) : Except Stop Bytes := do
  commands machine ["mkdir -p /opkey"]
  orFailOpkey
    (machine.runs (utf8Bytes ("mount -o ro " ++ disk.device ++ " /opkey")))
    ("mount " ++ disk.device ++ " failed")
  orFailOpkey disk.hasPubkey "no /opkey/pubkey on disk"
  commands machine ["mkdir -p /sysroot/run/confai"]
  let staged ←
    (disk.copied.elim (.error (.opkey "stage pubkey failed")) .ok :
      Except Stop Bytes)
  commands machine ["chmod 0644 /sysroot/run/confai/operator-pubkey"]
  orFailOpkey
    (machine.runs
        (utf8Bytes "mount --bind /sysroot/run/confai /sysroot/run/confai") &&
      machine.runs
        (utf8Bytes "mount -o remount,bind,ro /sysroot/run/confai"))
    "read-only bind of /run/confai failed"
  return staged

/-- What the hash command prints of the key; nothing if it cannot read it. -/
def digestHex {size : Nat} (hash : Bytes → Block size) (disk : OpkeyDisk) :
    String :=
  disk.hashed.elim "" (hexHash hash)

/-- The value of a hexadecimal digit. -/
def hexValue (char : Char) : Nat :=
  if char.isDigit then char.toNat - '0'.toNat else char.toNat - 'a'.toNat + 10

/-- `printf` on what `sed 's/../\\x&/g'` makes of hexadecimal digits. -/
def printfEscaped : List Char → Bytes
  | high :: low :: digits =>
      UInt8.ofNat (hexValue high * 16 + hexValue low) :: printfEscaped digits
  | digits => utf8Bytes (String.ofList digits)

/-- The write of the digest into RTMR[3]. -/
def extendRtmr3 (sha384 : Bytes → Block 48) (rtmr3 : Block 48) (digest : Bytes) :
    Except Stop (Block 48) :=
  match machine.write with
  | .extended => .ok (rtmrExtend sha384 rtmr3 digest)
  | .notExtended | .extendedWithError =>
      .error
        (.opkey
          "write to /sys/devices/virtual/misc/tdx_guest/measurements/rtmr3:sha384 rejected")

/-- The TDX arm. -/
def bindRtmr3 (sha384 : Bytes → Block 48) (rtmr3 : Block 48)
    (disk : OpkeyDisk) : Except Stop (Block 48) := do
  let hex := digestHex sha384 disk
  orFailOpkey (isHexText hex) "sha384sum produced non-hex"
  orFailOpkey (hex.length = 96)
    s!"digest is {hex.length} hex chars, want 96"
  let digest := printfEscaped hex.toList
  orFailOpkey (digest.length = 48)
    s!"digest converted to {digest.length} bytes, want 48"
  let extended ← extendRtmr3 machine sha384 rtmr3 digest
  commands machine ["rm -f /opkey-digest.bin"]
  return extended

/-- The report, if it is long enough to hold HOSTDATA. -/
def readReport : Except Stop Bytes := do
  orFailOpkey
    (machine.runs (utf8Bytes "mkdir -p /sys/kernel/config/tsm/report/opkey"))
    "no ConfigFS-TSM report dir (kernel lacks CONFIG_TSM_REPORTS?)"
  orFailOpkey
    (machine.runs
      (utf8Bytes
        "dd if=/dev/zero bs=64 count=1 > /sys/kernel/config/tsm/report/opkey/inblob"))
    "TSM inblob write failed"
  let report ←
    (machine.outblob.elim (.error (.opkey "TSM outblob read failed")) .ok :
      Except Stop Bytes)
  orFailOpkey (224 ≤ report.length)
    s!"SNP report is {report.length} bytes, want >= 224"
  return report

/-- HOSTDATA of a report. -/
def hostData (report : Bytes) : Bytes :=
  slice report 192 32

/-- The SNP arm. -/
def verifyHostData (sha256 : Bytes → Block 32) (disk : OpkeyDisk) :
    Except Stop Unit := do
  let want := digestHex sha256 disk
  orFailOpkey (isHexText want) "sha256sum produced non-hex"
  orFailOpkey (want.length = 64)
    s!"digest is {want.length} hex chars, want 64"
  let report ← readReport machine
  let got := hexEncode (hostData report)
  commands machine ["rm -f /opkey-report.bin"]
  orFailOpkey (got.length = 64)
    s!"HOSTDATA extraction got {got.length} hex chars, want 64"
  orFailOpkey (got = want)
    s!"HOSTDATA is {got} but staged key implies {want} (launcher stripped or substituted the binding)"

section

variable (sha256 : Bytes → Block 32) (sha384 : Bytes → Block 48)

/-- The arm of the platform. -/
def bindPlatform (rtmr3 : Block 48) (disk : OpkeyDisk) :
    Except Stop (Block 48) :=
  if machine.rtmr3Writable then
    bindRtmr3 machine sha384 rtmr3 disk
  else if machine.hasSevGuest then do
    verifyHostData machine sha256 disk
    return rtmr3
  else
    .error
      (.opkey
        "no binding mechanism: neither writable /sys/devices/virtual/misc/tdx_guest/measurements/rtmr3:sha384 nor /dev/sev-guest")

/-- The file that is left for the booted system, and RTMR[3]. -/
def bindOperatorKey (rtmr3 : Block 48) :
    Except Stop (Option Bytes × Block 48) :=
  match machine.opkeyDisk with
  | none => .ok (none, rtmr3)
  | some disk => do
      let staged ← stagePubkey machine disk
      let bound ← bindPlatform machine sha256 sha384 rtmr3 disk
      return (some staged, bound)

/-- The script, up to the root it hands over to. -/
def init : Except Stop Booted := do
  let rootHash ← openRoot machine
  let (scratch, overlays) ← mountState machine
  let (operatorPubkey, rtmr3) ←
    bindOperatorKey machine sha256 sha384 (Block.zero 48)
  commands machine ["switch_root /sysroot /sbin/init"]
  return { rootHash, scratch, overlays, operatorPubkey, rtmr3 }

end

end

/-! ## Hexadecimal text -/

theorem isHexText_digits (bytes : Bytes) :
    (bytes.flatMap hexDigits).all (fun char =>
      ('0' ≤ char && char ≤ '9') || ('a' ≤ char && char ≤ 'f')) = true := by
  have digit :
      ∀ value < 16,
        (('0' ≤ Nat.digitChar value && Nat.digitChar value ≤ '9') ||
          ('a' ≤ Nat.digitChar value && Nat.digitChar value ≤ 'f')) = true := by
    decide
  rw [List.all_eq_true]
  intro char member
  rcases List.mem_flatMap.1 member with ⟨byte, -, ofByte⟩
  have high := Nat.div_lt_of_lt_mul (show byte.toNat < 16 * 16 from
    byte.toNat_lt)
  have low := Nat.mod_lt byte.toNat (show 0 < 16 by decide)
  rcases List.mem_pair.1 ofByte with rfl | rfl
  · exact digit _ high
  · exact digit _ low

/-- The text of a hash passes for one. -/
theorem isHexText_hexHash
    {size : Nat} (positive : 0 < size) (hash : Bytes → Block size)
    (bytes : Bytes) : isHexText (hexHash hash bytes) = true := by
  rw [isHexText, Bool.and_eq_true, decide_eq_true_iff]
  refine ⟨hexHash_ne_empty positive hash bytes, ?_⟩
  rw [hexHash, hexEncode, String.toList_ofList]
  exact isHexText_digits _

theorem hexValue_digitChar :
    ∀ value < 16, hexValue (Nat.digitChar value) = value := by
  decide

/-- `printf` prints the bytes that the text stands for. -/
theorem printfEscaped_hexEncode (bytes : Bytes) :
    printfEscaped (hexEncode bytes).toList = bytes := by
  rw [hexEncode, String.toList_ofList]
  induction bytes with
  | nil => rfl
  | cons byte bytes induction =>
      have high := Nat.div_lt_of_lt_mul (show byte.toNat < 16 * 16 from
        byte.toNat_lt)
      have low := Nat.mod_lt byte.toNat (show 0 < 16 by decide)
      have digits :
          hexDigits byte ++ bytes.flatMap hexDigits =
            Nat.digitChar (byte.toNat / 16) ::
              Nat.digitChar (byte.toNat % 16) :: bytes.flatMap hexDigits :=
        rfl
      rw [List.flatMap_cons, digits, printfEscaped, induction,
        hexValue_digitChar _ high, hexValue_digitChar _ low,
        Nat.div_add_mod', UInt8.ofNat_toNat]

/-! ## What a boot that hands over did -/

section

variable {machine : Machine}

theorem orFailOpkey_eq_ok
    {succeeded : Bool} {problem : String} {done : Unit} :
    orFailOpkey succeeded problem = .ok done ↔ succeeded = true := by
  cases succeeded with
  | false =>
      constructor
      · intro impossible
        cases impossible
      · intro impossible
        cases impossible
  | true => exact iff_of_true rfl rfl

theorem command_eq_ok {text : Bytes} {done : Unit} :
    command machine text = .ok done ↔ machine.runs text = true := by
  rw [command]
  split
  · next ran => exact iff_of_true rfl ran
  · next failed =>
      constructor
      · intro impossible
        cases impossible
      · intro ran
        exact absurd ran failed

/-- A script part is behind its commands when all of them ran. -/
theorem commands_eq_ok {texts : List String} {done : Unit} :
    commands machine texts = .ok done ↔
      ∀ text ∈ texts, machine.runs (utf8Bytes text) = true := by
  rw [commands, forM_eq_ok]
  simp only [command_eq_ok]

theorem elim_eq_ok
    {α : Type} {answer : Option α} {stop : Stop} {found : α} :
    answer.elim (.error stop : Except Stop α) .ok = .ok found ↔
      answer = some found := by
  cases answer with
  | none =>
      constructor
      · intro impossible
        cases impossible
      · intro impossible
        cases impossible
  | some other =>
      constructor
      · intro same
        cases same
        rfl
      · intro same
        cases same
        rfl

/-- The last parameter that sets the root hash counts. -/
theorem foldl_takeRootHash (params : List Bytes) :
    params.foldl takeRootHash [] = [] ∨
      ∃ before param after,
        params = before ++ (rootHashStart ++ param) :: after ∧
          (∀ other ∈ after, ¬ rootHashStart <+: other) ∧
            params.foldl takeRootHash [] = param := by
  induction params using List.reverseRecOn with
  | nil => exact Or.inl rfl
  | append_singleton params last induction =>
      rw [List.foldl_append, List.foldl_cons, List.foldl_nil]
      by_cases sets : rootHashStart <+: last
      · rcases sets with ⟨param, rfl⟩
        refine Or.inr ⟨params, param, [], rfl, ?_, ?_⟩
        · intro other member
          cases member
        · rw [takeRootHash, if_pos (by simp), List.drop_left]
      · have kept :
            takeRootHash (params.foldl takeRootHash []) last =
              params.foldl takeRootHash [] :=
          if_neg fun starts => sets (List.isPrefixOf_iff_prefix.1 starts)
        rw [kept]
        rcases induction with none | ⟨before, param, after, rfl, others, found⟩
        · exact Or.inl none
        · refine Or.inr ⟨before, param, after ++ [last], ?_, ?_, found⟩
          · rw [List.append_assoc, List.cons_append]
          · intro other member
            rcases List.mem_append.1 member with earlier | atEnd
            · exact others other earlier
            · rw [List.mem_singleton.1 atEnd]
              exact sets

/-- The root hash that the command line asks for. -/
structure AsksForRoot (cmdline rootHash : Bytes) : Prop where
  last :
    ∃ before param after,
      words cmdline = before ++ (rootHashStart ++ param) :: after ∧
        (∀ other ∈ after, ¬ rootHashStart <+: other) ∧
          rootHash = param.map toLower
  isRootHash : isRootHash rootHash = true

theorem foldl_takeRootHash_of_last
    {before after : List Bytes} {param : Bytes}
    (others : ∀ other ∈ after, ¬ rootHashStart <+: other) :
    (before ++ (rootHashStart ++ param) :: after).foldl takeRootHash [] =
      param := by
  have taken (rootHash : Bytes) :
      takeRootHash rootHash (rootHashStart ++ param) = param := by
    rw [takeRootHash, if_pos (by simp), List.drop_left]
  rw [List.foldl_append, List.foldl_cons, taken]
  induction after with
  | nil => rfl
  | cons other after induction =>
      rcases List.forall_mem_cons.1 others with ⟨first, rest⟩
      have kept : takeRootHash param other = param :=
        if_neg fun starts => first (List.isPrefixOf_iff_prefix.1 starts)
      rw [List.foldl_cons, kept]
      exact induction rest

theorem asksForRoot_iff {cmdline rootHash : Bytes} :
    AsksForRoot cmdline rootHash ↔
      isRootHash rootHash = true ∧
        rootHash = ((words cmdline).foldl takeRootHash []).map toLower := by
  constructor
  · rintro ⟨⟨before, param, after, split, others, same⟩, valid⟩
    refine ⟨valid, ?_⟩
    rw [split, foldl_takeRootHash_of_last others, same]
  · rintro ⟨valid, same⟩
    refine ⟨?_, valid⟩
    rcases foldl_takeRootHash (words cmdline) with
      none | ⟨before, param, after, split, others, found⟩
    · rw [same, none] at valid
      cases valid
    · exact ⟨before, param, after, split, others, found ▸ same⟩

theorem openRoot_eq_ok_iff {rootHash : Bytes} :
    openRoot machine = .ok rootHash ↔
      commands machine
          ["mount -t proc proc /proc", "mount -t sysfs sysfs /sys",
            "mount -t devtmpfs devtmpfs /dev"] = .ok () ∧
        AsksForRoot machine.cmdline rootHash ∧
          machine.seesRoot (looksWaiting machine 30 0) = true ∧
            machine.runs
              (utf8Bytes "veritysetup open /dev/vda2 root /dev/vda3 " ++
                rootHash) = true := by
  rw [openRoot, bind_eq_ok, asksForRoot_iff]
  generalize (words machine.cmdline).foldl takeRootHash [] = asked
  dsimp only
  constructor
  · rintro ⟨_, mounted, checked⟩
    split at checked
    · cases checked
    · split at checked
      · cases checked
      · next valid =>
          split at checked
          · cases checked
          · next seen =>
              rcases bind_eq_ok.1 checked with ⟨_, ran, returned⟩
              cases returned
              exact
                ⟨mounted, ⟨not_not.1 valid, rfl⟩, not_not.1 seen,
                  command_eq_ok.1 ran⟩
  · rintro ⟨mounted, ⟨valid, rfl⟩, seen, ran⟩
    have given : asked ≠ [] := by
      rintro rfl
      cases valid
    refine ⟨(), mounted, ?_⟩
    rw [if_neg given, if_neg (not_not.2 valid), if_neg (not_not.2 seen)]
    exact bind_eq_ok.2 ⟨(), command_eq_ok.2 ran, rfl⟩

/-- The disk that holds the writable state: the first one that is tagged. -/
inductive Backing (machine : Machine) : Option (String × Block 64) → Prop where
  | scratch (before after : List (String × Bytes)) (device : String)
      (serial : Bytes)
      (split : machine.disks = before ++ (device, serial) :: after)
      (tagged : isScratch (device, serial) = true)
      (first : ∀ disk ∈ before, isScratch disk = false) :
      Backing machine (some (device, machine.urandom))
  | memory (untagged : ∀ disk ∈ machine.disks, isScratch disk = false) :
      Backing machine none

theorem mountStateBacking_eq_ok
    {scratch : Option (String × Block 64)}
    (mounted : mountStateBacking machine = .ok scratch) :
    Backing machine scratch := by
  rw [mountStateBacking, scratchDev] at mounted
  cases found : machine.disks.find? isScratch with
  | none =>
      rw [found] at mounted
      rcases bind_eq_ok.1 mounted with ⟨_, -, returned⟩
      cases returned
      exact .memory fun disk member =>
        Bool.eq_false_of_not_eq_true (List.find?_eq_none.1 found disk member)
  | some disk =>
      rw [found] at mounted
      rcases bind_eq_ok.1 mounted with ⟨_, -, returned⟩
      cases returned
      rcases List.find?_eq_some_iff_append.1 found with
        ⟨tagged, before, after, split, first⟩
      refine .scratch before after disk.1 disk.2 split tagged ?_
      intro other member
      simpa using first other member

/-- The text of a key's hash, where the key can be read. -/
theorem exists_hashed
    {size : Nat} {hash : Bytes → Block size} {disk : OpkeyDisk}
    (isHex : isHexText (digestHex hash disk) = true) :
    ∃ key, disk.hashed = some key ∧ digestHex hash disk = hexHash hash key := by
  rw [digestHex] at isHex ⊢
  cases hashed : disk.hashed with
  | none =>
      rw [hashed] at isHex
      cases isHex
  | some key => exact ⟨key, rfl, rfl⟩

variable {sha256 : Bytes → Block 32} {sha384 : Bytes → Block 48}

theorem extendRtmr3_eq_ok {rtmr3 bound : Block 48} {digest : Bytes} :
    extendRtmr3 machine sha384 rtmr3 digest = .ok bound ↔
      machine.write = .extended ∧ bound = rtmrExtend sha384 rtmr3 digest := by
  rw [extendRtmr3]
  cases machine.write with
  | extended =>
      constructor
      · intro same
        cases same
        exact ⟨rfl, rfl⟩
      · rintro ⟨-, rfl⟩
        rfl
  | notExtended =>
      constructor
      · intro impossible
        cases impossible
      · rintro ⟨impossible, -⟩
        cases impossible
  | extendedWithError =>
      constructor
      · intro impossible
        cases impossible
      · rintro ⟨impossible, -⟩
        cases impossible

/--
The TDX arm extends by the hash of what it reads: a digest is never refused for
its form, so that the read and the write decide.
-/
theorem bindRtmr3_eq_ok
    {rtmr3 bound : Block 48} {disk : OpkeyDisk} :
    bindRtmr3 machine sha384 rtmr3 disk = .ok bound ↔
      machine.write = .extended ∧
        machine.runs (utf8Bytes "rm -f /opkey-digest.bin") = true ∧
          ∃ key,
            disk.hashed = some key ∧
              bound = rtmrExtend sha384 rtmr3 (sha384 key).bytes := by
  have printed (key : Bytes) :
      printfEscaped (hexHash sha384 key).toList = (sha384 key).bytes :=
    printfEscaped_hexEncode _
  rw [bindRtmr3]
  simp only [bind_eq_ok, orFailOpkey_eq_ok, extendRtmr3_eq_ok, commands_eq_ok,
    List.forall_mem_singleton]
  constructor
  · rintro ⟨_, isHex, _, -, _, -, _, ⟨extended, rfl⟩, _, ran, returned⟩
    cases returned
    rcases exists_hashed isHex with ⟨key, hashed, text⟩
    refine ⟨extended, ran, key, hashed, ?_⟩
    rw [text, printed]
  · rintro ⟨extended, ran, key, hashed, rfl⟩
    have text : digestHex sha384 disk = hexHash sha384 key := by
      rw [digestHex, hashed]
      rfl
    rw [text, printed]
    refine
      ⟨(), isHexText_hexHash (by decide) _ _, (),
        decide_eq_true (length_hexHash _ _), (),
        decide_eq_true (Block.length_eq _), _, ⟨extended, rfl⟩, (), ran, rfl⟩

theorem readReport_eq_ok
    {report : Bytes} (read : readReport machine = .ok report) :
    machine.outblob = some report ∧ 224 ≤ report.length := by
  simp only [readReport, bind_eq_ok, orFailOpkey_eq_ok, elim_eq_ok] at read
  rcases read with ⟨_, -, _, -, _, blob, _, long, returned⟩
  cases returned
  exact ⟨blob, of_decide_eq_true long⟩

/-- The SNP arm goes on where HOSTDATA is the hash of what it reads. -/
theorem verifyHostData_eq_ok
    {disk : OpkeyDisk} (verified : verifyHostData machine sha256 disk = .ok ()) :
    ∃ key report,
      disk.hashed = some key ∧ machine.outblob = some report ∧
        hostData report = (sha256 key).bytes := by
  simp only [verifyHostData, bind_eq_ok, orFailOpkey_eq_ok] at verified
  rcases verified with
    ⟨_, isHex, _, -, report, read, _, -, _, -, same⟩
  rcases exists_hashed isHex with ⟨key, hashed, text⟩
  rw [text] at same
  exact
    ⟨key, report, hashed, (readReport_eq_ok read).1,
      hexEncode_injective (of_decide_eq_true same)⟩

/-- How a boot is bound to an operator key. -/
inductive Binding
    (sha256 : Bytes → Block 32) (sha384 : Bytes → Block 48)
    (machine : Machine) : Option Bytes → Block 48 → Prop where
  | unbound (noDisk : machine.opkeyDisk = none) :
      Binding sha256 sha384 machine none (Block.zero 48)
  | tdx (disk : OpkeyDisk) (staged key : Bytes)
      (attached : machine.opkeyDisk = some disk)
      (copied : disk.copied = some staged) (hashed : disk.hashed = some key)
      (writable : machine.rtmr3Writable = true) :
      Binding sha256 sha384 machine (some staged)
        (register sha384 extendMessage (Block.zero 48) [key])
  | snp (disk : OpkeyDisk) (staged key report : Bytes)
      (attached : machine.opkeyDisk = some disk)
      (copied : disk.copied = some staged) (hashed : disk.hashed = some key)
      (notWritable : machine.rtmr3Writable = false)
      (reported : machine.outblob = some report)
      (committed : hostData report = (sha256 key).bytes) :
      Binding sha256 sha384 machine (some staged) (Block.zero 48)

theorem stagePubkey_eq_ok
    {disk : OpkeyDisk} {staged : Bytes}
    (left : stagePubkey machine disk = .ok staged) :
    disk.copied = some staged := by
  simp only [stagePubkey, bind_eq_ok, elim_eq_ok] at left
  rcases left with ⟨_, -, _, -, _, -, _, -, _, copied, _, -, _, -, returned⟩
  cases returned
  exact copied

/-- No boot hands over with a key that is attached and not bound. -/
theorem bindOperatorKey_eq_ok
    {operatorPubkey : Option Bytes} {rtmr3 : Block 48}
    (bound :
      bindOperatorKey machine sha256 sha384 (Block.zero 48) =
        .ok (operatorPubkey, rtmr3)) :
    Binding sha256 sha384 machine operatorPubkey rtmr3 := by
  rw [bindOperatorKey] at bound
  cases attached : machine.opkeyDisk with
  | none =>
      rw [attached] at bound
      cases bound
      exact .unbound attached
  | some disk =>
      rw [attached] at bound
      rcases bind_eq_ok.1 bound with ⟨staged, left, afterStaging⟩
      rcases bind_eq_ok.1 afterStaging with ⟨extended, onPlatform, returned⟩
      cases returned
      have copied := stagePubkey_eq_ok left
      rw [bindPlatform] at onPlatform
      split at onPlatform
      · next writable =>
          rcases bindRtmr3_eq_ok.1 onPlatform with ⟨-, -, key, hashed, rfl⟩
          exact .tdx disk staged key attached copied hashed writable
      · next notWritable =>
          split at onPlatform
          · rcases bind_eq_ok.1 onPlatform with ⟨_, verified, unchanged⟩
            cases unchanged
            rcases verifyHostData_eq_ok verified with
              ⟨key, report, hashed, reported, committed⟩
            exact
              .snp disk staged key report attached copied hashed
                (Bool.eq_false_of_not_eq_true notWritable) reported committed
          · cases onPlatform

/-- What holds of a boot that hands over. -/
structure HandsOver
    (sha256 : Bytes → Block 32) (sha384 : Bytes → Block 48)
    (machine : Machine) (booted : Booted) : Prop where
  root : AsksForRoot machine.cmdline booted.rootHash
  verity :
    machine.runs
      (utf8Bytes "veritysetup open /dev/vda2 root /dev/vda3 " ++
        booted.rootHash) = true
  backing : Backing machine booted.scratch
  overlays :
    StateOverlays.mountState machine.kernel machine.stateFiles =
      .ok booted.overlays
  binding :
    Binding sha256 sha384 machine booted.operatorPubkey booted.rtmr3

theorem mountState_eq_ok
    {scratch : Option (String × Block 64)} {overlays : StateOverlays.State}
    (mounted : mountState machine = .ok (scratch, overlays)) :
    Backing machine scratch ∧
      StateOverlays.mountState machine.kernel machine.stateFiles =
        .ok overlays := by
  simp only [mountState, bind_eq_ok, mapError_eq_ok] at mounted
  rcases mounted with ⟨_, -, other, onBacking, others, onState, _, -, returned⟩
  cases returned
  exact ⟨mountStateBacking_eq_ok onBacking, onState⟩

/--
The initrd fails closed: it hands over only to the root that the command line
asks for last, with the first tagged disk behind its state, and with the
operator key of the launch bound to the machine.
-/
theorem handsOver_of_init
    {booted : Booted} (boots : init machine sha256 sha384 = .ok booted) :
    HandsOver sha256 sha384 machine booted := by
  rw [init] at boots
  rcases bind_eq_ok.1 boots with ⟨rootHash, opened, afterRoot⟩
  rcases bind_eq_ok.1 afterRoot with ⟨⟨scratch, overlays⟩, mounted, afterState⟩
  rcases bind_eq_ok.1 afterState with
    ⟨⟨operatorPubkey, rtmr3⟩, bound, afterKey⟩
  rcases bind_eq_ok.1 afterKey with ⟨_, -, returned⟩
  cases returned
  rcases openRoot_eq_ok_iff.1 opened with ⟨-, root, -, verity⟩
  exact
    { root := root
      verity := verity
      backing := (mountState_eq_ok mounted).1
      overlays := (mountState_eq_ok mounted).2
      binding := bindOperatorKey_eq_ok bound }

/-! ## When a boot hands over -/

/-- The key can be left for the booted system and bound to the machine. -/
structure Binds
    (sha256 : Bytes → Block 32) (machine : Machine) (disk : OpkeyDisk) :
    Prop where
  hasPubkey : disk.hasPubkey = true
  copied : ∃ staged, disk.copied = some staged
  bound :
    ∃ key,
      disk.hashed = some key ∧
        ((machine.rtmr3Writable = true ∧ machine.write = .extended) ∨
          (machine.rtmr3Writable = false ∧ machine.hasSevGuest = true ∧
            ∃ report,
              machine.outblob = some report ∧
                hostData report = (sha256 key).bytes))

/-- A disk that stays is found by the last look if by any. -/
theorem seesRoot_looksWaiting
    (stays :
      ∀ look, machine.seesRoot look = true →
        machine.seesRoot (look + 1) = true)
    (left looks : Nat) :
    machine.seesRoot (looksWaiting machine left looks) = true ↔
      machine.seesRoot (looks + left + 1) = true := by
  have later (look more : Nat) (seen : machine.seesRoot look = true) :
      machine.seesRoot (look + more) = true := by
    induction more with
    | zero => exact seen
    | succ more induction => exact stays _ induction
  induction left generalizing looks with
  | zero => rfl
  | succ left induction =>
      rw [looksWaiting]
      split
      · next seen =>
          constructor
          · intro again
            have last := later (looks + 1) (left + 1) again
            rwa [Nat.add_right_comm] at last
          · intro _
            exact stays looks seen
      · rw [← Nat.add_assoc, Nat.add_right_comm looks left 1]
        exact induction (looks + 1)

section

variable (runs : ∀ text, machine.runs text = true)

include runs

theorem commands_of_runs (texts : List String) :
    commands machine texts = .ok () :=
  commands_eq_ok.2 fun _ _ => runs _

theorem openRoot_isOk_iff
    (stays :
      ∀ look, machine.seesRoot look = true →
        machine.seesRoot (look + 1) = true) :
    (∃ rootHash, openRoot machine = .ok rootHash) ↔
      (∃ rootHash, AsksForRoot machine.cmdline rootHash) ∧
        machine.seesRoot 31 = true := by
  simp only [openRoot_eq_ok_iff, commands_of_runs runs, runs,
    seesRoot_looksWaiting stays, true_and, and_true]
  rw [exists_and_right]

theorem mountState_isOk_iff :
    (∃ scratch overlays, mountState machine = .ok (scratch, overlays)) ↔
      ∃ overlays,
        StateOverlays.mountState machine.kernel machine.stateFiles =
          .ok overlays := by
  constructor
  · rintro ⟨scratch, overlays, mounted⟩
    exact ⟨overlays, (mountState_eq_ok mounted).2⟩
  · rintro ⟨overlays, onState⟩
    have backing : ∃ scratch, mountStateBacking machine = .ok scratch := by
      rw [mountStateBacking]
      cases scratchDev machine with
      | none => exact ⟨_, bind_eq_ok.2 ⟨(), commands_of_runs runs _, rfl⟩⟩
      | some device =>
          exact ⟨_, bind_eq_ok.2 ⟨(), commands_of_runs runs _, rfl⟩⟩
    rcases backing with ⟨scratch, onBacking⟩
    refine ⟨scratch, overlays, ?_⟩
    simp only [mountState, bind_eq_ok, mapError_eq_ok]
    exact
      ⟨(), commands_of_runs runs _, scratch, onBacking, overlays, onState, (),
        commands_of_runs runs _, rfl⟩

theorem stagePubkey_eq_ok_iff {disk : OpkeyDisk} {staged : Bytes} :
    stagePubkey machine disk = .ok staged ↔
      disk.hasPubkey = true ∧ disk.copied = some staged := by
  simp only [stagePubkey, bind_eq_ok, elim_eq_ok, orFailOpkey_eq_ok,
    commands_eq_ok, runs, implies_true, Bool.and_self, true_and, exists_const]
  constructor
  · rintro ⟨hasPubkey, _, copied, returned⟩
    cases returned
    exact ⟨hasPubkey, copied⟩
  · rintro ⟨hasPubkey, copied⟩
    exact ⟨hasPubkey, staged, copied, rfl⟩

theorem verifyHostData_eq_ok_iff {disk : OpkeyDisk} :
    verifyHostData machine sha256 disk = .ok () ↔
      ∃ key report,
        disk.hashed = some key ∧ machine.outblob = some report ∧
          hostData report = (sha256 key).bytes := by
  refine ⟨verifyHostData_eq_ok, ?_⟩
  rintro ⟨key, report, hashed, reported, committed⟩
  have text : digestHex sha256 disk = hexHash sha256 key := by
    rw [digestHex, hashed]
    rfl
  have got : hexEncode (hostData report) = hexHash sha256 key := by
    rw [committed]
    rfl
  have long : 224 ≤ report.length := by
    have length := congrArg List.length committed
    rw [hostData, length_slice, Block.length_eq] at length
    omega
  have read : readReport machine = .ok report := by
    simp only [readReport, bind_eq_ok, elim_eq_ok, orFailOpkey_eq_ok, runs,
      true_and, exists_const]
    exact ⟨report, reported, decide_eq_true long, rfl⟩
  simp only [verifyHostData, bind_eq_ok, orFailOpkey_eq_ok, commands_eq_ok,
    runs, implies_true, text, true_and, exists_const]
  refine
    ⟨isHexText_hexHash (by decide) _ _, decide_eq_true (length_hexHash _ _),
      report, read, ?_⟩
  rw [got]
  exact ⟨decide_eq_true (length_hexHash _ _), decide_eq_true rfl⟩

variable (sha384) in
/-- The arm of the platform binds the key it reads, or refuses it. -/
theorem bindPlatform_isOk_iff (rtmr3 : Block 48) {disk : OpkeyDisk} :
    (∃ bound, bindPlatform machine sha256 sha384 rtmr3 disk = .ok bound) ↔
      ∃ key,
        disk.hashed = some key ∧
          ((machine.rtmr3Writable = true ∧ machine.write = .extended) ∨
            (machine.rtmr3Writable = false ∧ machine.hasSevGuest = true ∧
              ∃ report,
                machine.outblob = some report ∧
                  hostData report = (sha256 key).bytes)) := by
  rw [bindPlatform]
  cases machine.rtmr3Writable with
  | true =>
      rw [if_pos rfl]
      constructor
      · rintro ⟨bound, onTdx⟩
        rcases bindRtmr3_eq_ok.1 onTdx with ⟨extended, -, key, hashed, -⟩
        exact ⟨key, hashed, Or.inl ⟨rfl, extended⟩⟩
      · rintro ⟨key, hashed, ⟨-, extended⟩ | ⟨impossible, -⟩⟩
        · exact
            ⟨_, bindRtmr3_eq_ok.2 ⟨extended, runs _, key, hashed, rfl⟩⟩
        · cases impossible
  | false =>
      rw [if_neg Bool.false_ne_true]
      constructor
      · rintro ⟨bound, onSnp⟩
        split at onSnp
        · next sevGuest =>
            rcases bind_eq_ok.1 onSnp with ⟨_, verified, -⟩
            rcases verifyHostData_eq_ok verified with
              ⟨key, report, hashed, reported, committed⟩
            exact
              ⟨key, hashed,
                Or.inr ⟨rfl, sevGuest, report, reported, committed⟩⟩
        · cases onSnp
      · rintro
          ⟨key, hashed,
            ⟨impossible, -⟩ | ⟨-, sevGuest, report, reported, committed⟩⟩
        · cases impossible
        · have verified :=
            (verifyHostData_eq_ok_iff runs).2
              ⟨key, report, hashed, reported, committed⟩
          rw [if_pos sevGuest]
          exact ⟨_, bind_eq_ok.2 ⟨(), verified, rfl⟩⟩

variable (sha384) in
theorem bindOperatorKey_isOk_iff (rtmr3 : Block 48) :
    (∃ bound, bindOperatorKey machine sha256 sha384 rtmr3 = .ok bound) ↔
      ∀ disk, machine.opkeyDisk = some disk → Binds sha256 machine disk := by
  rw [bindOperatorKey]
  cases machine.opkeyDisk with
  | none =>
      constructor
      · intro _ disk impossible
        cases impossible
      · intro _
        exact ⟨_, rfl⟩
  | some disk =>
      constructor
      · rintro ⟨bound, ran⟩ other same
        cases same
        rcases bind_eq_ok.1 ran with ⟨staged, left, afterStaging⟩
        rcases bind_eq_ok.1 afterStaging with ⟨extended, onPlatform, -⟩
        rcases (stagePubkey_eq_ok_iff runs).1 left with ⟨hasPubkey, copied⟩
        exact
          { hasPubkey := hasPubkey
            copied := ⟨staged, copied⟩
            bound :=
              (bindPlatform_isOk_iff sha384 runs rtmr3).1
                ⟨extended, onPlatform⟩ }
      · intro binds
        rcases binds disk rfl with ⟨hasPubkey, ⟨staged, copied⟩, bound⟩
        have left := (stagePubkey_eq_ok_iff runs).2 ⟨hasPubkey, copied⟩
        rcases (bindPlatform_isOk_iff sha384 runs rtmr3).2 bound with
          ⟨extended, onPlatform⟩
        exact
          ⟨(some staged, extended),
            bind_eq_ok.2
              ⟨staged, left, bind_eq_ok.2 ⟨extended, onPlatform, rfl⟩⟩⟩

end

variable (sha256 sha384) in
/-- The parts of the script make up the boot. -/
theorem init_isOk_iff_parts (runs : ∀ text, machine.runs text = true) :
    (∃ booted, init machine sha256 sha384 = .ok booted) ↔
      (∃ rootHash, openRoot machine = .ok rootHash) ∧
        (∃ scratch overlays, mountState machine = .ok (scratch, overlays)) ∧
          ∃ bound,
            bindOperatorKey machine sha256 sha384 (Block.zero 48) =
              .ok bound := by
  constructor
  · rintro ⟨booted, boots⟩
    rcases bind_eq_ok.1 boots with ⟨rootHash, opened, afterRoot⟩
    rcases bind_eq_ok.1 afterRoot with
      ⟨⟨scratch, overlays⟩, mounted, afterState⟩
    rcases bind_eq_ok.1 afterState with ⟨bound, onKey, -⟩
    exact ⟨⟨rootHash, opened⟩, ⟨scratch, overlays, mounted⟩, bound, onKey⟩
  · rintro ⟨⟨rootHash, opened⟩, ⟨scratch, overlays, mounted⟩, bound, onKey⟩
    exact
      ⟨_, bind_eq_ok.2
        ⟨rootHash, opened, bind_eq_ok.2
          ⟨(scratch, overlays), mounted, bind_eq_ok.2
            ⟨bound, onKey, bind_eq_ok.2
              ⟨(), commands_of_runs runs _, rfl⟩⟩⟩⟩⟩

/--
Where the commands run and a disk that is there stays, the initrd hands over
exactly if the last root hash of the command line is one, the disk is there
within thirty seconds, the state can be mounted, and an operator key that is
attached can be staged and bound: no digest is refused for the bytes in it.
-/
theorem init_isOk_iff
    (runs : ∀ text, machine.runs text = true)
    (stays :
      ∀ look, machine.seesRoot look = true →
        machine.seesRoot (look + 1) = true) :
    (∃ booted, init machine sha256 sha384 = .ok booted) ↔
      (∃ rootHash, AsksForRoot machine.cmdline rootHash) ∧
        machine.seesRoot 31 = true ∧
          (∃ overlays,
            StateOverlays.mountState machine.kernel machine.stateFiles =
              .ok overlays) ∧
            ∀ disk, machine.opkeyDisk = some disk → Binds sha256 machine disk := by
  rw [init_isOk_iff_parts sha256 sha384 runs, openRoot_isOk_iff runs stays,
    mountState_isOk_iff runs,
    bindOperatorKey_isOk_iff sha384 runs (Block.zero 48), and_assoc]

end

/-! ## A boot with a scratch disk -/

def sampleCmdline : Bytes :=
  utf8Bytes "console=hvc0 roothash=0 roothash=" ++ List.replicate 64 0x41

def sampleKernel : StateOverlays.Kernel where
  isDirectory _ _ := true
  mounts _ _ := true

def sampleStateFiles : List (String × Bytes) :=
  [("10-base.conf", utf8Bytes "var\n")]

/-- Every command runs, and the disk of the image comes up after a while; the
machine is an SNP one if it has a report, and else a TDX one. -/
def sampleMachine (report : Option Bytes) (opkeyDisk : Option OpkeyDisk) :
    Machine where
  runs _ := true
  cmdline := sampleCmdline
  seesRoot look := decide (3 ≤ look)
  disks :=
    [("vda", utf8Bytes "confai-scratch"), ("vdb", utf8Bytes "seed\n"),
      ("vdc", utf8Bytes "confai-scratch\n")]
  urandom := Block.zero 64
  kernel := sampleKernel
  stateFiles := sampleStateFiles
  opkeyDisk := opkeyDisk
  rtmr3Writable := report.isNone
  write := .extended
  hasSevGuest := report.isSome
  outblob := report

/-- A disk with one key for the file and one for the hash. -/
def sampleDisk (copied hashed : Bytes) : OpkeyDisk where
  device := "/dev/vdd"
  hasPubkey := true
  copied := some copied
  hashed := some hashed

theorem asksForRoot_sample :
    AsksForRoot sampleCmdline (List.replicate 64 0x61) :=
  asksForRoot_iff.2 (by decide +kernel)

theorem mountState_sample :
    ∃ overlays,
      StateOverlays.mountState sampleKernel sampleStateFiles = .ok overlays :=
  exists_eq_ok_of_isOk (by decide +kernel)

theorem stays_sample
    (report : Option Bytes) (opkeyDisk : Option OpkeyDisk) (look : Nat)
    (seen : (sampleMachine report opkeyDisk).seesRoot look = true) :
    (sampleMachine report opkeyDisk).seesRoot (look + 1) = true :=
  decide_eq_true (Nat.le_succ_of_le (of_decide_eq_true seen))

theorem binds_sample
    {sha256 : Bytes → Block 32} (copied hashed : Bytes)
    (report : Option Bytes)
    (committed :
      ∀ blob, report = some blob → hostData blob = (sha256 hashed).bytes) :
    ∀ disk,
      (sampleMachine report (some (sampleDisk copied hashed))).opkeyDisk =
          some disk →
        Binds sha256 (sampleMachine report (some (sampleDisk copied hashed)))
          disk := by
  intro disk attached
  cases attached
  refine ⟨rfl, ⟨_, rfl⟩, _, rfl, ?_⟩
  cases report with
  | none => exact Or.inl ⟨rfl, rfl⟩
  | some blob => exact Or.inr ⟨rfl, rfl, blob, rfl, committed blob rfl⟩

theorem init_isOk_iff_sample :
    ∃ booted,
      init (sampleMachine none (some (sampleDisk [0x0A] [0x0A])))
          (fun _ => Block.zero 32) (fun _ => Block.zero 48) =
        .ok booted :=
  (init_isOk_iff (fun _ => rfl) (stays_sample _ _)).2
    ⟨⟨_, asksForRoot_sample⟩, rfl, mountState_sample,
      binds_sample _ _ none fun _ reported => nomatch reported⟩

theorem exists_boots_sample
    (sha256 : Bytes → Block 32) (sha384 : Bytes → Block 48)
    {report : Option Bytes} {opkeyDisk : Option OpkeyDisk}
    (binds :
      ∀ disk,
        (sampleMachine report opkeyDisk).opkeyDisk = some disk →
          Binds sha256 (sampleMachine report opkeyDisk) disk) :
    ∃ booted,
      init (sampleMachine report opkeyDisk) sha256 sha384 = .ok booted := by
  have runs (text : Bytes) :
      (sampleMachine report opkeyDisk).runs text = true := rfl
  refine (init_isOk_iff_parts _ _ runs).2 ⟨?_, ?_, ?_⟩
  · exact
      (openRoot_isOk_iff runs (stays_sample _ _)).2
        ⟨⟨_, asksForRoot_sample⟩, rfl⟩
  · exact (mountState_isOk_iff runs).2 mountState_sample
  · exact (bindOperatorKey_isOk_iff _ runs _).2 binds

end Confos.Guest.Initrd
