import Confos.Image.Qemu
import Confos.Library.ShellWords

/-!
# The line `confos run` prints

Before the runner becomes QEMU it prints the command, for a reader to paste
into a shell.  The arguments are file names and property lists, and those with
any character a shell might act on are quoted.
-/

namespace Confos.Image.LaunchLine

open Confos.Image.Qemu
open Confos.Library.ByteStrings
open Confos.Library.Fallible
open Confos.Library.ShellWords

/-! ## The line -/

def isAsciiAlphanumeric (byte : UInt8) : Bool :=
  (0x30 ≤ byte && byte ≤ 0x39) || (0x41 ≤ byte && byte ≤ 0x5A) ||
    (0x61 ≤ byte && byte ≤ 0x7A)

def isHarmless (byte : UInt8) : Bool :=
  isAsciiAlphanumeric byte || (utf8Bytes "@%_-+=:,./").contains byte

def needsQuote (arg : String) : Bool :=
  arg.isEmpty || (utf8Bytes arg).any fun byte => !isHarmless byte

def shellWord (arg : String) : String :=
  if needsQuote arg then String.ofList (quoted arg.toList) else arg

/-- An argument list as a line for the shell. -/
def shellJoin (argv : List String) : String :=
  " ".intercalate (argv.map shellWord)

/-! ## The launch -/

/-- What the machine answers the launch. -/
structure Host where
  pathExists : String → Bool
  isFile : FilePath → Bool
  require : String → Except String FilePath

/-- The line that is printed, and the command the runner becomes. -/
structure Launched where
  printed : String
  argv : List String
deriving DecidableEq

def resolveQemu (host : Host) (qemuBin : String) : Except String String :=
  if host.pathExists qemuBin then
    .ok qemuBin
  else do
    let path ← host.require qemuBin
    return display path

def launch (host : Host) (qemuBin : String) (args : QemuArgs) :
    Except String Launched := do
  let qemuBin ← resolveQemu host qemuBin
  let cmdArgs ← args.toArgs host.isFile
  match args.tier with
  | .sevSnp =>
      if args.igvm.isSome then
        -- SNP needs the rights to open `/dev/sev`
        .ok
          { printed := "sudo " ++ shellJoin (qemuBin :: cmdArgs)
            argv := "sudo" :: qemuBin :: cmdArgs }
      else
        .error "SevSnp tier requires igvm path"
  | .kvm | .emulated =>
      if args.uki.isNone then
        .error "Kvm/Emulated tier requires uki path"
      else if args.firmware.isNone then
        .error "Kvm/Emulated tier requires firmware path"
      else
        .ok
          { printed := shellJoin (qemuBin :: cmdArgs)
            argv := qemuBin :: cmdArgs }

/-! ## Reading the line -/

section

variable {arg program : String} {argv others : List String}

theorem toNat_lt_of_utf8EncodeChar
    {char : Char}
    (ascii : ∀ byte ∈ String.utf8EncodeChar char, byte.toNat < 128) :
    char.toNat < 128 := by
  rw [String.utf8EncodeChar] at ascii
  split_ifs at ascii with one two three
  · exact Nat.lt_succ_of_le one
  · have lead := ascii _ List.mem_cons_self
    rw [UInt8.toNat_ofNat'] at lead
    omega
  · have lead := ascii _ List.mem_cons_self
    rw [UInt8.toNat_ofNat'] at lead
    omega
  · have lead := ascii _ List.mem_cons_self
    rw [UInt8.toNat_ofNat'] at lead
    omega

instance : DecidablePred IsPlain := fun _ =>
  inferInstanceAs (Decidable (_ ∧ _ ∧ _ ∧ _))

/-- A harmless byte is the code of a character that stands for itself. -/
theorem isPlain_of_isHarmless :
    ∀ code < 256, isHarmless (UInt8.ofNat code) = true →
      code < 128 ∧ IsPlain (Char.ofNat code) := by
  decide +kernel

theorem needsQuote_eq_false_iff :
    needsQuote arg = false ↔
      arg.toList ≠ [] ∧ ∀ byte ∈ utf8Bytes arg, isHarmless byte = true := by
  rw [needsQuote, Bool.or_eq_false_iff, List.any_eq_false, Bool.eq_false_iff,
    ne_eq, String.isEmpty_iff, ← String.toList_eq_nil_iff]
  simp

theorem isPlain_of_needsQuote
    (bare : needsQuote arg = false) :
    ∀ char ∈ arg.toList, IsPlain char := by
  have harmless := (needsQuote_eq_false_iff.1 bare).2
  rw [← String.ofList_toList (s := arg), utf8Bytes_ofList] at harmless
  intro char member
  have bytes :
      ∀ byte ∈ String.utf8EncodeChar char, isHarmless byte = true :=
    fun byte ofChar => harmless byte (List.mem_flatMap.2 ⟨char, member, ofChar⟩)
  have ascii : char.toNat < 128 := by
    apply toNat_lt_of_utf8EncodeChar
    intro byte ofChar
    refine (isPlain_of_isHarmless byte.toNat byte.toNat_lt ?_).1
    rw [UInt8.ofNat_toNat]
    exact bytes byte ofChar
  rw [utf8EncodeChar_of_lt ascii] at bytes
  have plain :=
    (isPlain_of_isHarmless char.toNat (by omega)
      (bytes _ List.mem_cons_self)).2
  rwa [Char.ofNat_toNat] at plain

theorem spells_shellWord : Spells (shellWord arg).toList arg.toList := by
  rw [shellWord]
  split
  · next quote => exact Or.inr (String.toList_ofList)
  · next bare =>
      have bare := Bool.eq_false_iff.2 bare
      exact
        Or.inl
          ⟨rfl, (needsQuote_eq_false_iff.1 bare).1, isPlain_of_needsQuote bare⟩

/-- The arguments of a line are the ones it was written from. -/
theorem readWords_shellJoin :
    readWords (shellJoin argv).toList = some (argv.map String.toList) := by
  have spells :
      ∀ word ∈ argv.map String.toList,
        Spells (shellWord (String.ofList word)).toList word := by
    intro word member
    rcases List.mem_map.1 member with ⟨arg, -, rfl⟩
    rw [String.ofList_toList]
    exact spells_shellWord
  rw [← readWords_intercalate spells, shellJoin, String.toList_intercalate,
    List.map_map, List.map_map]
  congr 3
  funext arg
  rw [Function.comp, Function.comp, String.ofList_toList]

variable (program others) in
/-- Only a first argument that is not quoted can be taken for shell syntax. -/
theorem isSyntax_firstText_shellJoin :
    isSyntax (firstText (shellJoin (program :: others)).toList) = true ↔
      needsQuote program = false ∧ isSyntax program.toList = true := by
  have line :
      ∃ rest, (shellJoin (program :: others)).toList =
        (shellWord program).toList ++ rest ∧
          (rest = [] ∨ ∃ more, rest = ' ' :: more) := by
    cases others with
    | nil =>
        refine ⟨[], ?_, Or.inl rfl⟩
        rw [shellJoin, List.map_cons, List.map_nil, String.intercalate_singleton,
          List.append_nil]
    | cons second others =>
        refine ⟨' ' :: (shellJoin (second :: others)).toList, ?_,
          Or.inr ⟨_, rfl⟩⟩
        rw [shellJoin, List.map_cons, List.map_cons,
          String.intercalate_cons_cons, String.toList_append,
          String.toList_append, List.append_assoc]
        rfl
  rcases line with ⟨rest, line, ends⟩
  rw [line, shellWord]
  cases bare : needsQuote program with
  | true =>
      rw [if_pos rfl, String.toList_ofList, quoted, List.cons_append,
        List.cons_append, isSyntax_quote]
      simp
  | false =>
      have unbroken : ∀ char ∈ program.toList, isBlank char = false :=
        fun char member => (isPlain_of_needsQuote bare char member).1
      have first : firstText (program.toList ++ rest) = program.toList := by
        rcases ends with rfl | ⟨more, rfl⟩
        · rw [List.append_nil]
          exact firstText_eq_self unbroken
        · exact firstText_append_blank unbroken
      rw [if_neg (by decide), first]
      simp

/-! ## The launch -/

/-- The printed line is the command, with its arguments quoted. -/
theorem printed_of_launch
    {host : Host} {qemuBin : String} {args : QemuArgs} {launched : Launched}
    (ready : launch host qemuBin args = .ok launched) :
    ∃ program others, launched.argv = program :: others ∧
      launched.printed = shellJoin launched.argv ∧
        (args.tier = .sevSnp → program = "sudo") := by
  rw [launch] at ready
  rcases bind_eq_ok.1 ready with ⟨qemu, -, found⟩
  rcases bind_eq_ok.1 found with ⟨cmdArgs, -, tier⟩
  cases isTier : args.tier with
  | sevSnp =>
      rw [isTier] at tier
      dsimp only at tier
      split at tier
      · cases tier
        refine ⟨"sudo", qemu :: cmdArgs, rfl, ?_, fun _ => rfl⟩
        have bare : shellWord "sudo" = "sudo" := by decide +kernel
        rw [shellJoin, shellJoin, List.map_cons, List.map_cons, List.map_cons,
          String.intercalate_cons_cons, bare]
        rfl
      · cases tier
  | kvm | emulated =>
      rw [isTier] at tier
      dsimp only at tier
      split at tier
      · cases tier
      · split at tier
        · cases tier
        · cases tier
          exact ⟨qemu, cmdArgs, rfl, rfl, nofun⟩

/--
A shell to which the printed line is given reads the arguments the runner
passes on, whatever is in them; and it runs them as a command unless the
program, started without `sudo`, has a name that is shell syntax.
-/
theorem readCommand_printed
    {host : Host} {qemuBin : String} {args : QemuArgs} {launched : Launched}
    (ready : launch host qemuBin args = .ok launched) :
    readWords launched.printed.toList =
        some (launched.argv.map String.toList) ∧
      (readCommand launched.printed.toList = none ↔
        args.tier ≠ .sevSnp ∧ ∃ program ∈ launched.argv.head?,
          needsQuote program = false ∧ isSyntax program.toList = true) := by
  rcases printed_of_launch ready with
    ⟨program, others, argv, printed, asRoot⟩
  rw [printed, readCommand, readWords_shellJoin]
  refine ⟨rfl, ?_⟩
  have first := isSyntax_firstText_shellJoin program others
  rw [argv, List.head?_cons]
  constructor
  · intro refused
    split at refused
    · next command =>
        have named := first.1 command
        refine ⟨fun isSnp => ?_, program, rfl, named⟩
        have ordinary : isSyntax "sudo".toList = false := by decide +kernel
        rw [asRoot isSnp, ordinary] at named
        cases named.2
    · cases refused
  · rintro ⟨-, _, ⟨⟩, named⟩
    rw [if_pos (first.2 named)]

end

/-! ## A sample -/

def sampleHost : Host :=
  { pathExists := fun _ => true
    isFile := fun _ => true
    require := fun _ => .error "not found" }

/-- An image in a directory with a blank and a quote in its name. -/
def sampleArgs : QemuArgs :=
  { tier := .kvm
    igvm := none
    uki := some (utf8Bytes "it's new/uki.efi")
    firmware := some (utf8Bytes "it's new/OVMF.fd")
    disk := utf8Bytes "it's new/disk.raw"
    diskFormat := "raw"
    smp := 2
    memory := "4G"
    hostData := none
    cdroms := []
    portForwards := []
    scratch := none }

def sampleLaunched : Launched :=
  let argv :=
    ["./qemu", "-machine", "q35", "-enable-kvm", "-drive",
      "if=pflash,format=raw,readonly=on,file=it's new/OVMF.fd", "-kernel",
      "it's new/uki.efi", "-chardev", "stdio,id=hvc0,signal=off,mux=on",
      "-device", "virtio-serial-pci,id=virtser0", "-device",
      "virtconsole,chardev=hvc0,id=console0", "-mon",
      "chardev=hvc0,mode=readline", "-drive",
      "file=it's new/disk.raw,format=raw,if=none,id=root0,readonly=on",
      "-device", "virtio-blk-pci,drive=root0", "-smp", "2", "-m", "4G",
      "-display", "none", "-serial", "none"]
  { printed := shellJoin argv
    argv }

theorem readCommand_printed_sample :
    launch sampleHost "./qemu" sampleArgs = .ok sampleLaunched ∧
      readWords sampleLaunched.printed.toList =
          some (sampleLaunched.argv.map String.toList) ∧
        (readCommand sampleLaunched.printed.toList = none ↔
          sampleArgs.tier ≠ .sevSnp ∧ ∃ program ∈ sampleLaunched.argv.head?,
            needsQuote program = false ∧ isSyntax program.toList = true) := by
  have ready : launch sampleHost "./qemu" sampleArgs = .ok sampleLaunched := by
    decide +kernel
  exact ⟨ready, readCommand_printed ready⟩

end Confos.Image.LaunchLine
