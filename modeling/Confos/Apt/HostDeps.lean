import Confos.Library.ByteStrings
import Confos.Library.Text
import Mathlib.Data.List.DropRight

/-!
# The package cache of `host-deps`

A cold run installs packages from the snapshot and keeps them in a directory,
with a manifest written behind them.  A later run reads the manifest and, if it
accepts it, hands the packages of the directory to apt without the network.
-/

namespace Confos.Apt.HostDeps

open Confos.Library.ByteStrings

/-! ## The directory -/

abbrev Name := Bytes

inductive Entry where
  | file (content : Bytes)
  | folder
deriving DecidableEq

/-- The cache directory. -/
abbrev Directory := List (Name × Entry)

namespace Directory

def file? (directory : Directory) (name : Name) : Option Bytes :=
  match directory.lookup name with
  | some (.file content) => some content
  | _ => none

def put (directory : Directory) (name : Name) (content : Bytes) : Directory :=
  directory.filter (·.1 ≠ name) ++ [(name, .file content)]

def remove (directory : Directory) (name : Name) : Directory :=
  directory.filter (·.1 ≠ name)

end Directory

def dot : UInt8 := 0x2e

/-- `*.deb`, which a hidden name does not match. -/
def isDeb (name : Name) : Bool :=
  (utf8Bytes ".deb").isSuffixOf name && name.head? ≠ some dot

def debs (directory : Directory) : List Name :=
  (directory.map (·.1)).filter isDeb

def manifestName : Name :=
  utf8Bytes "manifest"

/-! ## Text -/

def newline : UInt8 := 0x0a
def blank : UInt8 := 0x20
def tab : UInt8 := 0x09

/-- The lines; what is behind the last end is one only if it is not empty. -/
def linesBy (isEnd : UInt8 → Bool) (text : Bytes) : List Bytes :=
  let pieces := text.splitOnP isEnd
  if pieces.getLast? = some [] then pieces.dropLast else pieces

def linesOf (text : Bytes) : List Bytes :=
  linesBy (· = newline) text

/-- The lines as `grep` finds them; a NUL ends one too. -/
def grepLines (text : Bytes) : List Bytes :=
  linesBy (fun byte => byte = newline || byte = 0) text

/-- `grep -qxF`: each line of the pattern is a pattern of its own. -/
def grep (pattern text : Bytes) : Bool :=
  (grepLines text).any fun line => (pattern.splitOn newline).contains line

/-- The lines that `$(...)` keeps: NULs and empty lines at the end are lost. -/
def substituted (lines : List Bytes) : List Bytes :=
  (lines.map fun line => line.filter (· ≠ 0)).rdropWhile (· = [])

/-- `"$*"` -/
def joined (words : List Bytes) : Bytes :=
  [blank].intercalate words

/-- The fields of a line of `awk`. -/
def fields (line : Bytes) : List Bytes :=
  (line.splitOnP fun byte => byte = blank || byte = tab).filter (· ≠ [])

/-! ## The tools -/

/-- The tools that the script calls, and the files outside the directory. -/
structure Tools where
  sha256 : Bytes → Bytes
  /-- The digest and the path of a checksum line; other lines are skipped. -/
  checkLine : Bytes → Option (Bytes × Name)
  /-- The line that `sha256sum` writes for a file. -/
  sumLine : Bytes → Name → Bytes
  /-- The entry of the directory that another path to it leads to. -/
  entryAt : Name → Option Name
  outside : Name → Option Bytes

namespace Tools

variable (tools : Tools) (directory : Directory)

/-- A path leads to an entry: by its name, or the long way round. -/
def LeadsTo (path name : Name) : Prop :=
  path = name ∨
    directory.lookup path = none ∧ tools.entryAt path = some name

/-- The content of the file that a path of a checksum line leads to. -/
def read (path : Name) : Option Bytes :=
  if (directory.lookup path).isSome then
    directory.file? path
  else
    match tools.entryAt path with
    | some name => directory.file? name
    | none => tools.outside path

/-- `sha256sum -c --quiet -` in the directory. -/
def sha256sumCheck (lines : List Bytes) : Bool :=
  let listed := lines.filterMap tools.checkLine
  listed ≠ [] &&
    listed.all fun sum =>
      (tools.read directory sum.2).map tools.sha256 = some sum.1

end Tools

/-! ## The run -/

/-- What a run is for. -/
structure Request where
  snapshot : Bytes
  codename : Bytes
  packages : List Name

namespace Request

def snapshotLine (request : Request) : Bytes :=
  utf8Bytes "snapshot " ++ request.snapshot

def codenameLine (request : Request) : Bytes :=
  utf8Bytes "codename " ++ request.codename

def packagesLine (request : Request) : Bytes :=
  utf8Bytes "packages " ++ joined request.packages

def entries (request : Request) : List Bytes :=
  [request.snapshotLine, request.codenameLine, request.packagesLine]

end Request

/-- What stands behind `start` in a line. -/
def stripStart (start line : Bytes) : Option Bytes :=
  if start.isPrefixOf line then some (line.drop start.length) else none

/-- The lines of `sums`. -/
def sums (manifest : Bytes) : List Bytes :=
  substituted ((linesOf manifest).filterMap (stripStart (utf8Bytes "sha256 ")))

/-- `manifest_ok`; without `--cache-dir` there is no directory. -/
def manifestOk (tools : Tools) (request : Request)
    (cache : Option Directory) : Bool :=
  match cache with
  | none => false
  | some directory =>
      match directory.file? manifestName with
      | none => false
      | some manifest =>
          grep request.snapshotLine manifest &&
            grep request.codenameLine manifest &&
            grep request.packagesLine manifest &&
            (sums manifest = [] ||
              tools.sha256sumCheck directory (sums manifest))

/-- The version of a package that the manifest's cold run resolved. -/
def resolvedVersion (manifest : Bytes) (package : Name) : Bytes :=
  let rows := (linesOf manifest).map fields
  let versions :=
    rows.filterMap fun row =>
      if row[0]? = some (utf8Bytes "resolved") ∧ row[1]? = some package then
        some (row[2]?.getD [])
      else
        none
  [newline].intercalate (substituted versions)

/-- `versions_match` against the versions that `dpkg-query` tells. -/
def versionsMatch (request : Request) (installed : Name → Option Bytes)
    (cache : Option Directory) : Bool :=
  let manifest := (cache.bind (Directory.file? · manifestName)).getD []
  request.packages.all fun package =>
    installed package = some (resolvedVersion manifest package)

/-- What a run handed to apt without the network, and whether it left it at
that; a run that is not warm installs from the snapshot. -/
structure Run where
  handed : List Name
  warm : Bool
deriving DecidableEq

/-- A run, up to the cold install; `installs` is how apt ends, and `installed`
what is then there. -/
def run (tools : Tools) (request : Request) (cache : Option Directory)
    (installs : Bool) (installed : Name → Option Bytes) : Run :=
  if manifestOk tools request cache then
    let handed := debs (cache.getD [])
    if handed = [] || installs then
      { handed, warm := versionsMatch request installed cache }
    else
      { handed, warm := false }
  else
    { handed := [], warm := false }

/-! ## The cold install -/

/-- One change of the directory; a killed run ends between two of them. -/
inductive Change where
  | remove (name : Name)
  | create (name : Name)
  | append (name : Name) (byte : UInt8)

def change (directory : Directory) : Change → Directory
  | .remove name => directory.remove name
  | .create name => directory.put name []
  | .append name byte =>
      match directory.file? name with
      | some content => directory.put name (content ++ [byte])
      | none => directory

/-- A file is written from its start on. -/
def writing (name : Name) (content : Bytes) : List Change :=
  .create name :: content.map (.append name)

/-- What apt and `dpkg-query` leave for the cache. -/
structure Transaction where
  archives : List (Name × Bytes)
  resolved : Bytes

/-- The manifest of a transaction. -/
def manifestText (tools : Tools) (request : Request)
    (transaction : Transaction) : Bytes :=
  (request.entries.flatMap fun entry => entry ++ [newline]) ++
    transaction.resolved ++
      transaction.archives.flatMap fun file =>
        utf8Bytes "sha256 " ++
          (tools.sumLine (tools.sha256 file.2) file.1 ++ [newline])

def isFolder (directory : Directory) (name : Name) : Bool :=
  directory.lookup name = some .folder

/-- What `install_cold` does to the directory; `rm -f` fails on a folder. -/
def installCold (tools : Tools) (request : Request)
    (transaction : Transaction) (directory : Directory) : List Change :=
  let stale := debs directory ++ [manifestName]
  let removals := (stale.filter fun name => !isFolder directory name).map
    Change.remove
  if stale.any (isFolder directory) then
    removals
  else
    removals ++
      (transaction.archives.flatMap fun file => writing file.1 file.2) ++
        writing manifestName (manifestText tools request transaction)

/-- The directory that a cold run leaves, finished or killed. -/
def afterCold (tools : Tools) (request : Request) (transaction : Transaction)
    (directory : Directory) (changes : Nat) : Directory :=
  ((installCold tools request transaction directory).take changes).foldl
    change directory

end Confos.Apt.HostDeps
