import Confos.Library.ByteStrings

/-!
# RTMR[2] of a UKI boot

What the UEFI stub measures from the sections of a UKI, predicted offline from
the section contents, and the register value those measurements end in.
-/

namespace Confos.Tdx.Rtmr

open Confos.Library.ByteStrings

/-! ## Text -/

/-- The UTF-16 code units of a character. -/
def encodeUtf16 (character : Char) : List UInt16 :=
  if character.toNat < 0x10000 then
    [UInt16.ofNat character.toNat]
  else
    let high := (character.toNat - 0x10000) / 0x400
    let low := (character.toNat - 0x10000) % 0x400
    [UInt16.ofNat (0xD800 + high), UInt16.ofNat (0xDC00 + low)]

/-! ## The assembled initrd -/

/-- Zero bytes up to a multiple of four. -/
def pad4 (length : Nat) : Bytes :=
  List.replicate ((4 - length % 4) % 4) 0

/-- One CPIO newc entry: header and name, then the data, each padded. -/
def cpioEntry (name : String) (data : Bytes) (ino mode : Nat) : Bytes :=
  let nameSize := name.utf8ByteSize + 1
  let fileSize := data.length
  let header :=
    utf8Bytes
        s!"070701{lowerHex 8 ino}{lowerHex 8 mode}00000000000000000000000100000000{lowerHex 8 fileSize}00000000000000000000000000000000{lowerHex 8 nameSize}00000000" ++
      utf8Bytes name ++ [0]
  header ++ pad4 header.length ++
    if data.isEmpty then [] else data ++ pad4 fileSize

def cpioTrailer : Bytes :=
  utf8Bytes
      "0707010000000000000000000000000000000000000001000000000000000000000000000000000000000000000000" ++
    utf8Bytes "0000000B00000000TRAILER!!!" ++ List.replicate 4 0

/-- The os-release archive the stub hands to the kernel. -/
def buildOsrelCpio (osrelData : Bytes) : Bytes :=
  cpioEntry ".extra" [] 1 0o040555 ++
    cpioEntry ".extra/os-release" osrelData 2 0o0100444 ++ cpioTrailer

def buildAssembledInitrd (initrd osrel : Bytes) : Bytes :=
  let osrelCpio := buildOsrelCpio osrel
  initrd ++ pad4 initrd.length ++ osrelCpio ++ pad4 osrelCpio.length

/-! ## The predicted digests -/

/-- The measured sections in canonical order. -/
def ukiMeasurementOrder : List String :=
  [".linux", ".osrel", ".cmdline", ".initrd", ".uname", ".splash", ".dtb",
    ".sbat", ".pcrpkey"]

/-- A section by its name; a later one hides an earlier one. -/
def sectionMap (sections : List (String × Bytes)) (name : String) :
    Option Bytes :=
  sections.reverse.lookup name

structure Rtmr2Digest where
  kind : String
  sectionName : String
  digest : Block 48
deriving DecidableEq

/-- The end of the command line that the digest leaves out. -/
def trimmedAtEnd (character : Char) : Bool :=
  character == '\n' || character == '\r' || character == '\x00' ||
    character == ' '

section

variable (sha384 : Bytes → Block 48)

def rtmrExtend (current : Block 48) (digest : Bytes) : Block 48 :=
  sha384 (current.bytes ++ digest)

/-- The register a log of digests ends in. -/
def measureLog (log : List Bytes) : Block 48 :=
  log.foldl (rtmrExtend sha384) (Block.zero 48)

/-- The two events of one measured section: its name and its data. -/
def sectionDigests (name : String) (data : Bytes) : List Rtmr2Digest :=
  [{ kind := "name", sectionName := name, digest := sha384 (utf8Bytes name ++ [0]) },
    { kind := "data", sectionName := name, digest := sha384 data }]

/-- The load options event: the command line in UTF-16 with its terminator. -/
def loadOptionsDigest (cmdlineData : Bytes) :
    Except String (List Rtmr2Digest) :=
  match utf8Text? cmdlineData with
  | none => .error "UKI .cmdline section contains invalid UTF-8"
  | some text =>
      let cmdline := (text.toList.reverse.dropWhile trimmedAtEnd).reverse
      let utf16 :=
        (cmdline.flatMap encodeUtf16).flatMap fun unit => leBytes 2 unit.toNat
      .ok
        [{ kind := "loadopts", sectionName := "cmdline",
           digest := sha384 (utf16 ++ [0, 0]) }]

def precomputeRtmr2Digests (sections : List (String × Bytes)) :
    Except String (List Rtmr2Digest) := do
  let measured :=
    ukiMeasurementOrder.flatMap fun name =>
      match sectionMap sections name with
      | some data => sectionDigests sha384 name data
      | none => []
  let loadOptions ←
    match sectionMap sections ".cmdline" with
    | some cmdlineData => loadOptionsDigest sha384 cmdlineData
    | none => .ok []
  let initrd : List Rtmr2Digest :=
    match sectionMap sections ".initrd", sectionMap sections ".osrel" with
    | some initrdData, some osrelData =>
        [{ kind := "initrd", sectionName := "assembled",
           digest := sha384 (buildAssembledInitrd initrdData osrelData) }]
    | _, _ => []
  return measured ++ loadOptions ++ initrd

/-- RTMR[2] of a UKI boot and the number of its events. -/
def computeRtmr2Uki (sections : List (String × Bytes)) :
    Except String (Block 48 × Nat) := do
  let digests ← precomputeRtmr2Digests sha384 sections
  let digestValues := digests.map (·.digest.bytes)
  return (measureLog sha384 digestValues, digests.length)

end

end Confos.Tdx.Rtmr
