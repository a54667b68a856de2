import Confos.Library.Effects
import Confos.Library.FileTrees
import Confos.Library.PythonText
import Mathlib.Data.List.Sort

/-!
# The check of a restored apt cache

`verify-apt-cache` deletes what a restored cache holds and the signed indexes
of the pinned sources do not vouch for.  It reads and deletes through paths,
which symbolic links of the cache may lead anywhere.
-/

namespace Confos.Apt.VerifyCache

open Confos.Library.ByteStrings
open Confos.Library.Effects
open Confos.Library.PythonText
open Confos.Library.FileTrees
open Confos.Library.FileTrees.Tree

/-! ## Dictionaries -/

/-- `dict[key] = value`: a known key keeps its place. -/
def setItem {κ α : Type} [DecidableEq κ]
    (dict : List (κ × α)) (key : κ) (value : α) : List (κ × α) :=
  if dict.any (·.1 = key) then
    dict.map fun item => if item.1 = key then (key, value) else item
  else
    dict ++ [(key, value)]

/-! ## Names and texts -/

/-- `%02x` behind a percent sign. -/
def percent (char : Char) : List Char :=
  '%' :: (lowerHex 2 char.toNat).toList

def reserved : List Char :=
  "\\|\x7b\x7d[]<>\"^~_=!@#$%*".toList

/-- apt's `URItoFileName`. -/
def aptFilename (uri : String) : String :=
  let behind := (uri.toList.dropWhile (· ≠ ':')).tail
  let name := if ':' ∈ uri.toList then behind else uri.toList
  let name :=
    if "//".toList.isPrefixOf name then name.drop 2 else name
  let quoted :=
    name.flatMap fun char =>
      if char ∈ reserved then percent char else [char]
  String.ofList (quoted.map fun char => if char = '/' then '_' else char)

def quote (field : List Char) : List Char :=
  field.flatMap fun char =>
    if char ∈ ['_', ':'] then percent char else [char]

/-- What ends a run. -/
inductive Raised where
  | osError
  | untrusted
  /-- What `gpgv` says of a signature is not UTF-8. -/
  | unreadable
  | other
deriving DecidableEq, Repr

/-- What the script takes from other programs, and what the mirrors answer. -/
structure Tools where
  sha256 : Bytes → String
  /-- The signed text, or what is said of a signature that is not accepted. -/
  gpgv : Bytes → Except Bytes Bytes
  decompress : Bytes → Option Bytes
  /-- `fetch_any`: no answer is an `OSError` of every base URL. -/
  fetchAny : List String → String → Option Bytes

/-! ## InRelease -/

/-- One line of the signed text: a section, or a digest of the SHA-256 one. -/
def readHash
    (state : List (String × String) × Option (List Char))
    (line : List Char) :
    Except Raised (List (String × String) × Option (List Char)) :=
  if line.head? ≠ some ' ' then
    .ok (state.1, some (line.takeWhile (· ≠ ':')))
  else if state.2 = some "SHA256".toList then
    match split line with
    | [digest, _, path] =>
        .ok
          (setItem state.1 (String.ofList path) (String.ofList digest), state.2)
    | _ => .error .other
  else
    .ok state

/-- The SHA-256 digests of a signed text. -/
def hashesIn (text : List Char) : Except Raised (List (String × String)) := do
  let state ← (splitlines text).foldlM readHash ([], none)
  return state.1

def signedRelease (tools : Tools) (raw : Bytes) :
    Except Raised (List (String × String)) :=
  match tools.gpgv raw with
  | .error stderr =>
      .error (if (decode stderr).isSome then .untrusted else .unreadable)
  | .ok stdout =>
      match decode stdout with
      | none => .error .other
      | some text => hashesIn text

/-! ## Packages indexes -/

def debFields : List (List Char) :=
  ["Package".toList, "Version".toList, "Architecture".toList, "SHA256".toList]

/-- A stanza's archive file name and SHA-256; a name without a part fails. -/
def stanzaDeb (fields : List (List Char × List Char)) :
    Except Raised (List (String × String)) :=
  match fields.lookup "Package".toList, fields.lookup "SHA256".toList with
  | some package, some digest =>
      match
        fields.lookup "Version".toList, fields.lookup "Architecture".toList
      with
      | some version, some architecture =>
          .ok
            [(String.ofList
                (quote package ++ '_' :: (quote version ++ '_' ::
                  (quote architecture ++ ".deb".toList))),
              String.ofList digest)]
      | _, _ => .error .other
  | _, _ => .ok []

def readStanzaLine
    (state : List (String × String) × List (List Char × List Char))
    (line : Bytes) :
    Except Raised (List (String × String) × List (List Char × List Char)) :=
  if line = [] then do
    return (state.1 ++ (← stanzaDeb state.2), [])
  else if line.head? = some 0x20 ∨ line.head? = some 0x09 then
    .ok state
  else
    let text := decodeReplace line
    let key := text.takeWhile (· ≠ ':')
    if debFields.contains key then
      .ok
        (state.1,
          setItem state.2 key (strip (text.dropWhile (· ≠ ':')).tail))
    else
      .ok state

/-- apt's archive file name and SHA-256 of each stanza of an index. -/
def debsIn (index : Bytes) : Except Raised (List (String × String)) := do
  let state ← (bytesSplitlines index ++ [[]]).foldlM readStanzaLine ([], [])
  return state.1

/-! ## The pinned sources -/

/-- A binary source of an image's sandbox tree. -/
structure Source where
  uri : String
  bases : List String
  suite : String
  components : List String
deriving DecidableEq, Repr

def Source.dists (source : Source) : String :=
  "dists/" ++ source.suite

/-- The name of a source's file among apt's lists. -/
def Source.listName (source : Source) (path : String) : String :=
  aptFilename (source.uri ++ "/" ++ source.dists ++ "/" ++ path)

/-- A Packages index that the archives are checked with. -/
structure Package where
  image : Name
  name : String
  bases : List String
  path : String
  digest : String
deriving DecidableEq, Repr

/-- What the InRelease files say: the lists of each image, and the indexes. -/
structure Expected where
  known : List (Name × List (String × String))
  packages : List Package
deriving DecidableEq, Repr

def Expected.of (expected : Expected) (image : Name) :
    List (String × String) :=
  (expected.known.lookup image).getD []

section

variable (tools : Tools) (arch : String)

def packagesPath (component : String) : String :=
  component ++ "/binary-" ++ arch ++ "/Packages"

def addComponent (image : Name) (source : Source)
    (hashes : List (String × String)) (packages : List Package)
    (component : String) : Except Raised (List Package) :=
  let path := packagesPath arch component
  match hashes.lookup path, hashes.lookup (path ++ ".xz") with
  | some _, some digest =>
      .ok
        (packages ++
          [{ image, name := source.listName path, bases := source.bases,
             path := source.dists ++ "/" ++ path, digest }])
  | _, _ => .error .untrusted

/-- The lists that an InRelease file gives the digests of, itself included. -/
def addLists (source : Source) (raw : Bytes) (hashes : List (String × String))
    (known : List (String × String)) : List (String × String) :=
  hashes.foldl
    (fun known item => setItem known (source.listName item.1) item.2)
    (setItem known (source.listName "InRelease") (tools.sha256 raw))

def addSource (image : Name) (expected : Expected) (source : Source) :
    Except Raised Expected :=
  match tools.fetchAny source.bases (source.dists ++ "/InRelease") with
  | none => .error .osError
  | some raw => do
      let hashes ← signedRelease tools raw
      let packages ←
        source.components.foldlM (addComponent arch image source hashes)
          expected.packages
      return {
        known :=
          setItem expected.known image
            (addLists tools source raw hashes (expected.of image))
        packages }

def addImage (expected : Expected) (pinned : Name × List Source) :
    Except Raised Expected :=
  pinned.2.foldlM (addSource tools arch pinned.1)
    { expected with
      known := setItem expected.known pinned.1 (expected.of pinned.1) }

/-- What the pinned sources vouch for. -/
def readReleases (sources : List (Name × List Source)) :
    Except Raised Expected :=
  sources.foldlM (addImage tools arch) { known := [], packages := [] }

end

/-! ## The tree -/

/-- The lists that have been verified, by image and name. -/
abbrev Lists := List ((Name × Name) × Path)

/-- What a run changes: the files, and `lists`. -/
structure World where
  tree : Tree
  lists : Lists
deriving DecidableEq

abbrev Program := EStateM Raised World

/-- An operation that fails with an `OSError`. -/
def reading {α : Type} (read : Tree → Option α) : Program α := do
  match read (← get).tree with
  | none => throw .osError
  | some value => return value

def deleting (delete : Tree → Option Tree) : Program Unit := do
  match delete (← get).tree with
  | none => throw .osError
  | some tree => modify fun world => { world with tree }

def setLists (change : Lists → Lists) : Program Unit :=
  modify fun world => { world with lists := change world.lists }

section

variable (links : Nat)

/-- A directory and no link to one. -/
def isRealDir (tree : Tree) (path : Path) : Bool :=
  tree.isDir links path && !tree.isSymlink links path

/-- The content of a regular file and no link to one. -/
def realContent (tree : Tree) (path : Path) : Option Bytes :=
  if tree.isSymlink links path then none else tree.readBytes links path

def emptyEntry (directory : Path) (name : Name) : Program Unit := do
  let path := directory ++ [name]
  if isRealDir links (← get).tree path then
    deleting (·.rmtree links path)
  else
    deleting (·.unlink links path)

/-- Delete everything in a directory. -/
def empty (directory : Path) : Program Unit := do
  let names ← reading (·.listdir links directory)
  names.forM (emptyEntry links directory)

/-! ## The metadata caches -/

/-- A metadata cache by its image and its name. -/
abbrev Cache := Name × Name

section

variable (root : Path)

def mkosi : Path := root ++ ["mkosi"]

def pkgcache : Path := mkosi root ++ ["mkosi.pkgcache"]

def archives : Path :=
  pkgcache root ++ ["cache", "apt", "archives"]

def cacheDir (image : Name) : Path :=
  mkosi root ++ [image, "mkosi.cache"]

def cachePath (cache : Cache) : Path :=
  cacheDir root cache.1 ++ [cache.2]

def listsPath (cache : Cache) : Path :=
  cachePath root cache ++ ["lib", "apt", "lists"]

/-- `*.metadata.cache` -/
def isCacheName (name : Name) : Bool :=
  ".metadata.cache".toList.isSuffixOf name.toList

/-- `mkosi/*` -/
def images (tree : Tree) : List Name :=
  ((tree.listdir links (mkosi root)).getD []).filter fun image =>
    tree.isDir links (mkosi root ++ [image])

/-- `mkosi.cache/*.metadata.cache` of an image -/
def cachesOf (tree : Tree) (image : Name) : List Name :=
  ((tree.listdir links (cacheDir root image)).getD []).filter isCacheName

def metadataCaches (tree : Tree) : List Cache :=
  (images links root tree).flatMap fun image =>
    (cachesOf links root tree image).map fun name => (image, name)

variable (tools : Tools) (expected : Expected)

def checkList (cache : Cache) (name : Name) : Program Unit :=
  if name = "lock" then
    return
  else do
    let path := listsPath root cache ++ [name]
    if isRealDir links (← get).tree path then
      empty links path
    else
      match realContent links (← get).tree path with
      | none => throw .untrusted
      | some content =>
          if (expected.of cache.1).lookup name =
              some (tools.sha256 content) then
            setLists fun lists => setItem lists (cache.1, name) path
          else
            throw .untrusted

/-- `cache/**/*.bin`: links below `cache` are not followed. -/
def binaries (tree : Tree) (cache : Cache) : List Path :=
  match tree.realPath links (cachePath root cache ++ ["cache"]) with
  | none => []
  | some base =>
      (tree.map (·.1)).dedup.filter fun path =>
        base.isPrefixOf path && path ≠ base &&
          ".bin".toList.isSuffixOf (path.getLastD "").toList

def checkLists (cache : Cache) : Program Unit := do
  let names ← reading (·.listdir links (listsPath root cache))
  names.forM (checkList links root tools expected cache)
  (binaries links root (← get).tree cache).forM fun binary =>
    deleting (·.unlink links binary)

/-- A metadata cache with a list that is not verified is deleted. -/
def checkCache (cache : Cache) : Program Unit :=
  tryCatch (checkLists links root tools expected cache) fun raised =>
    if raised = .untrusted then do
      deleting (·.rmtree links (cachePath root cache))
      setLists fun lists =>
        lists.filter fun item => !(cachePath root cache).isPrefixOf item.2
    else
      throw raised

/-! ## The archives -/

/-- The index of a verified list, or a fresh one. -/
def readIndex (package : Package) : Program Bytes := do
  match (← get).lists.lookup (package.image, package.name) with
  | some path => reading (·.readBytes links path)
  | none =>
      match tools.fetchAny package.bases (package.path ++ ".xz") with
      | none => throw .osError
      | some compressed =>
          if tools.sha256 compressed = package.digest then
            match tools.decompress compressed with
            | none => throw .other
            | some index => return index
          else
            throw .untrusted

def addIndex (allowed : List (String × String)) (package : Package) :
    Program (List (String × String)) := do
  let index ← readIndex links tools package
  let debs ← MonadExcept.ofExcept (debsIn index)
  return allowed ++ debs

def checkDeb (allowed : List (String × String)) (name : Name) :
    Program Unit :=
  if name = "lock" then
    return
  else do
    let path := archives root ++ [name]
    if isRealDir links (← get).tree path then
      empty links path
    else
      match realContent links (← get).tree path with
      | some content =>
          if (name, tools.sha256 content) ∈ allowed then
            return
          else
            deleting (·.unlink links path)
      | none => deleting (·.unlink links path)

def checkArchives : Program Unit := do
  if (← get).tree.isDir links (archives root) then
    let allowed ← expected.packages.foldlM (addIndex links tools) []
    let names ← reading (·.listdir links (archives root))
    names.forM (checkDeb links root tools allowed)

end

/-! ## The script -/

/-- The metadata caches in the order of their paths. -/
def sortCaches (caches : List Cache) : List Cache :=
  caches.insertionSort fun left right =>
    left.1 < right.1 ∨ (left.1 = right.1 ∧ left.2 ≤ right.2)

section

variable (root : Path) (tools : Tools) (arch : String)
  (sources : List (Name × List Source))

def verify : Program Unit := do
  let metadata := sortCaches (metadataCaches links root (← get).tree)
  if metadata = [] && !(← get).tree.isDir links (archives root) then
    return
  else
    let expected ← MonadExcept.ofExcept (readReleases tools arch sources)
    metadata.forM (checkCache links root tools expected)
    checkArchives links root tools expected

/-- `shutil.rmtree` with `ignore_errors=True`: a link to a directory stays. -/
def rmtreeIgnoringErrors (path : Path) : Program Unit :=
  modify fun world =>
    { world with tree := (world.tree.rmtree links path).getD world.tree }

def deleteCaches (image : Name) : Program Unit := do
  if (← get).tree.isDir links (mkosi root ++ [image]) then
    (cachesOf links root (← get).tree image).forM fun name =>
      deleting (·.rmtree links (cachePath root (image, name)))

/-- What is done where a signature or an index is bad. -/
def deleteAll : Program Unit := do
  rmtreeIgnoringErrors links (pkgcache root)
  let names := ((← get).tree.listdir links (mkosi root)).getD []
  names.forM (deleteCaches links root)

/-- The script; a run that returns has the exit status 0. -/
def main : Program Unit :=
  tryCatch (verify links root tools arch sources) fun raised =>
    if raised = .untrusted then
      deleteAll links root
    else
      throw raised

end

end

end Confos.Apt.VerifyCache
