import Confos.Library.Fallible
import Confos.Library.Text

/-!
# The kernel pin

`kernel/version` pins the kernel release and the hash of its tarball, and each
kernel patch names the one release it was audited on.
-/

namespace Confos.Kernel.Version

open Confos.Library.Text

structure KernelVersion where
  linuxVersion : String
  tarballSha256 : String
deriving DecidableEq, Repr

/-- The two settings as far as they have been read. -/
structure Settings where
  linuxVersion : Option String := none
  tarballSha256 : Option String := none
deriving DecidableEq, Repr

/-- One line of the pin file, with its index. -/
def parseLine (settings : Settings) (indexed : List Char × Nat) :
    Except String Settings :=
  let line := trim indexed.1
  if line = [] ∨ line.head? = some '#' then
    .ok settings
  else
    match splitOnce '=' line with
    | none =>
        .error s!"kernel/version: line {indexed.2 + 1} malformed: {String.ofList indexed.1}"
    | some (key, value) =>
        let key := String.ofList (trim key)
        let value := String.ofList (trim value)
        if key = "LINUX_VERSION" then
          .ok { settings with linuxVersion := some value }
        else if key = "LINUX_TARBALL_SHA256" then
          .ok { settings with tarballSha256 := some value }
        else
          .error s!"kernel/version: unknown key '{key}'"

def KernelVersion.parse (text : List Char) : Except String KernelVersion := do
  let settings ← (lines text).zipIdx.foldlM parseLine {}
  match settings.linuxVersion, settings.tarballSha256 with
  | none, _ => .error "kernel/version: missing LINUX_VERSION"
  | some _, none => .error "kernel/version: missing LINUX_TARBALL_SHA256"
  | some linuxVersion, some tarballSha256 =>
      .ok { linuxVersion, tarballSha256 }

/-- The trailer that names the kernel a patch was audited on. -/
def versionTrailer : String := "Linux-Version:"

/-- The versions the header of a patch names. -/
def namedVersions (patch : List Char) : List (List Char) :=
  ((lines (before "\n---\n".toList patch)).filterMap
      (stripStart versionTrailer.toList)).filterMap fun version =>
    if trim version = [] then none else some (trim version)

def supportedVersion (patch : List Char) : Except String String :=
  match namedVersions patch with
  | [] => .error s!"patch has no {versionTrailer} trailer in its header"
  | [version] => .ok (String.ofList version)
  | _ => .error s!"patch has more than one {versionTrailer} trailer"

end Confos.Kernel.Version
