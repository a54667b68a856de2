import Confos.Apt.VouchedFiles
import Confos.Library.Machines
import Mathlib.Data.List.ReduceOption

/-!
# What the mirror is filled with

`mirror-apt-snapshot` reads the signed releases of the pinned suites and the
indexes they list, matches the cached packages with the stanzas of these, and
selects what else is fetched.
-/

namespace Confos.Apt.MirrorSelection

open Confos.Library
open Confos.Library.ByteStrings
open Confos.Library.PythonText
open Confos.Library.Text (containsText)
open Confos.Apt.VerifyCache (setItem quote)
open Confos.Apt.VouchedCache (mem_of_lookup mem_setItem)

/-- What the script takes from other programs and from Python. -/
structure Tools where
  sha256 : Bytes → String
  /-- The signed text of an InRelease file. -/
  gpgv : Bytes → Option Bytes
  /-- Whether a signature is one of a Release file. -/
  gpgvDetached : Bytes → Bytes → Bool
  decompress : Bytes → Option Bytes
  int : List Char → Option Int
  unquote : List Char → List Char
  compareVersions : List Char → List Char → Option Int

/-! ## Dictionaries -/

/-- `dict.setdefault(key, default)`, changed in place. -/
def updateItem {κ α : Type} [DecidableEq κ] (dict : List (κ × α)) (key : κ)
    (default : α) (change : α → α) : List (κ × α) :=
  setItem dict key (change ((dict.lookup key).getD default))

/-! ## Releases -/

abbrev Hashes := List (String × (String × Int))

/-- One line of a release: a section, or a file of the SHA-256 one. -/
def readHash (tools : Tools) (state : Hashes × Option (List Char))
    (line : List Char) : Option (Hashes × Option (List Char)) :=
  if line.head? ≠ some ' ' then
    some (state.1, some (line.takeWhile (· ≠ ':')))
  else if state.2 = some "SHA256".toList then
    match split line with
    | [digest, size, path] =>
        (tools.int size).map fun size =>
          (setItem state.1 (String.ofList path) (String.ofList digest, size),
            state.2)
    | _ => none
  else
    some state

def releaseHashes (tools : Tools) (text : Bytes) : Option Hashes := do
  let state ← (splitlines (← decode text)).foldlM (readHash tools) ([], none)
  return state.1

/-- A pinned suite, with its components and architectures in order. -/
structure Suite where
  ours : String
  upstream : String
  suite : String
  components : List String
  arches : List String
  source : Bool
deriving DecidableEq, Repr

def Suite.dists (suite : Suite) : String :=
  "dists/" ++ suite.suite

/-- The indexes that apt reads. -/
def Suite.wanted (suite : Suite) : List String :=
  suite.components.flatMap fun component =>
    (suite.arches.map fun arch =>
        component ++ "/binary-" ++ arch ++ "/Packages.xz") ++
      if suite.source then [component ++ "/source/Sources.xz"] else []

def isBinary (path : String) : Bool :=
  containsText "/binary-".toList path.toList

/-! ## Packages indexes -/

structure Entry where
  package : String
  version : String
  architecture : String
  filename : String
  size : String
  sha256 : String
  deb : String
deriving DecidableEq, Repr

def wantedFields : List (List Char) :=
  ["Package".toList, "Version".toList, "Architecture".toList,
    "Filename".toList, "Size".toList, "SHA256".toList]

/-- A stanza with all of the fields, and apt's name for its archive. -/
def entryOf (fields : List (List Char × List Char)) : Option Entry := do
  let package ← fields.lookup "Package".toList
  let version ← fields.lookup "Version".toList
  let architecture ← fields.lookup "Architecture".toList
  let filename ← fields.lookup "Filename".toList
  let size ← fields.lookup "Size".toList
  let sha256 ← fields.lookup "SHA256".toList
  let deb :=
    quote package ++ '_' :: (quote version ++ '_' ::
      (quote architecture ++ ".deb".toList))
  return Entry.mk (String.ofList package) (String.ofList version)
    (String.ofList architecture) (String.ofList filename)
    (String.ofList size) (String.ofList sha256) (String.ofList deb)

def readStanzaLine (state : List Entry × List (List Char × List Char))
    (line : Bytes) : List Entry × List (List Char × List Char) :=
  if line = [] then
    (state.1 ++ (entryOf state.2).toList, [])
  else if line.head? = some 0x20 ∨ line.head? = some 0x09 then
    state
  else
    let text := decodeReplace line
    let key := text.takeWhile (· ≠ ':')
    if wantedFields.contains key then
      (state.1, setItem state.2 key (strip (text.dropWhile (· ≠ ':')).tail))
    else
      state

def packagesIn (index : Bytes) : List Entry :=
  ((bytesSplitlines index ++ [[]]).foldl readStanzaLine ([], [])).1

/-! ## Pinned sets -/

abbrev Packages := List (String × List Entry)

/-- The suites that share our mirror's URL: their upstream and packages. -/
abbrev Sets := List (String × (String × Packages))

def addEntry (suite : Suite) (sets : Sets) (entry : Entry) : Sets :=
  updateItem sets suite.ours (suite.upstream, []) fun home =>
    (home.1, updateItem home.2 entry.package [] (· ++ [entry]))

/-- A stanza, and where its file comes from and goes to. -/
structure Fetch where
  ours : String
  upstream : String
  entry : Entry
deriving DecidableEq, Repr

def listed (sets : Sets) : List Fetch :=
  sets.flatMap fun home =>
    home.2.2.flatMap fun package =>
      package.2.map fun entry =>
        { ours := home.1, upstream := home.2.1, entry }

/-! ## Cached packages -/

/-- A cached archive file; nothing changes it during a run. -/
structure Cached where
  name : String
  content : Bytes
deriving DecidableEq, Repr

/-- A file that is uploaded: one of the cache, or one of the work directory. -/
inductive Source where
  | cache (content : Bytes)
  | work (name : String)
deriving DecidableEq, Repr

abbrev Debs := List (String × (Source × Entry))

def Fetch.url (fetch : Fetch) : String :=
  fetch.ours ++ "/" ++ fetch.entry.filename

structure Matching where
  debs : Debs
  /-- The pinned sets that list a cached package at its version. -/
  matched : List (String × List String)
  /-- The cached versions that no pinned set lists. -/
  stale : List (String × List (List Char))

section

variable (tools : Tools)

def nameAndVersion (name : String) : Option (String × List Char) :=
  match (name.toList.splitOn '_').take 2 with
  | [package, version] =>
      some (String.ofList (tools.unquote package), tools.unquote version)
  | _ => none

def homes (sets : Sets) (cached : Cached) : List Fetch :=
  (listed sets).filter fun found =>
    found.entry.deb = cached.name &&
      found.entry.sha256 = tools.sha256 cached.content

def matchCached (sets : Sets) (matching : Matching) (cached : Cached) :
    Option Matching := do
  let (name, version) ← nameAndVersion tools cached.name
  let found := homes tools sets cached
  if found = [] then
    return { matching with
      stale := updateItem matching.stale name [] (· ++ [version]) }
  else
    return { matching with
      debs :=
        found.foldl
          (fun debs home =>
            setItem debs home.url (.cache cached.content, home.entry))
          matching.debs
      matched :=
        updateItem matching.matched name [] (· ++ found.map (·.ours)) }

/-! ## Candidates -/

def newer (best entry : Entry) : Option Entry := do
  let difference ←
    tools.compareVersions entry.version.toList best.version.toList
  return if 0 < difference then entry else best

def candidate : List Entry → Option Entry
  | [] => none
  | first :: entries => entries.foldlM (newer tools) first

/-- The candidate of a package in one pinned set, if it has the package. -/
def candidateIn (name : String) (home : String × (String × Packages)) :
    Option (Option Fetch) :=
  match home.2.2.lookup name with
  | none => some none
  | some entries =>
      (candidate tools entries).map fun best =>
        some { ours := home.1, upstream := home.2.1, entry := best }

/-- Whether a cached package is refreshed to the candidate. -/
def isRefreshed (matching : Matching) (name : String) (fetch : Fetch) :
    Option Bool :=
  if matching.debs.any (·.1 = fetch.url) then
    some false
  else if ((matching.matched.lookup name).getD []).contains fetch.ours then
    some true
  else
    ((matching.stale.lookup name).getD []).anyM fun version =>
      (tools.compareVersions fetch.entry.version.toList version).map (0 < ·)

def refreshedIn (matching : Matching) (name : String)
    (home : String × (String × Packages)) : Option (Option Fetch) := do
  match ← candidateIn tools name home with
  | none => return none
  | some fetch =>
      return if ← isRefreshed tools matching name fetch then fetch else none

/-- The verified cached packages, and what is to be fetched. -/
def select (sets : Sets) (cache : List Cached) (packages : List String) :
    Option (Debs × List Fetch) := do
  let matching ← cache.foldlM (matchCached tools sets) ⟨[], [], []⟩
  let names :=
    (matching.matched.map (·.1) ++ matching.stale.map (·.1)).dedup
  let refreshed ←
    (names.insertionSort (· ≤ ·)).mapM fun name =>
      sets.mapM (refreshedIn tools matching name)
  let requested ← packages.mapM fun name => sets.mapM (candidateIn tools name)
  return (matching.debs, (refreshed.flatten ++ requested.flatten).reduceOption)

end

/-! ## Where the selected files are from -/

section

variable {κ α : Type} [DecidableEq κ]

theorem mem_keys_setItem
    {dict : List (κ × α)} {key other : κ} {value : α} :
    other ∈ (setItem dict key value).map (·.1) ↔
      other = key ∨ other ∈ dict.map (·.1) := by
  rw [setItem]
  split
  · next known =>
      have same :
          (dict.map fun item =>
                if item.1 = key then (key, value) else item).map (·.1) =
            dict.map (·.1) := by
        rw [List.map_map]
        refine List.map_congr_left fun item _ => ?_
        by_cases isKey : item.1 = key
        · simp [isKey]
        · simp [isKey]
      rw [same, or_iff_right_of_imp]
      rintro rfl
      rcases List.any_eq_true.1 known with ⟨item, member, isKey⟩
      exact List.mem_map.2 ⟨item, member, of_decide_eq_true isKey⟩
  · rw [List.map_append, List.mem_append, List.map_singleton,
      List.mem_singleton]
    exact or_comm

theorem mem_updateItem
    {dict : List (κ × α)} {key : κ} {default : α} {change : α → α}
    {item : κ × α} (member : item ∈ updateItem dict key default change) :
    item ∈ dict ∨
      ∃ old, item = (key, change old) ∧ (old = default ∨ (key, old) ∈ dict) := by
  rcases mem_setItem member with same | inside
  · refine Or.inr ⟨_, same, ?_⟩
    cases found : dict.lookup key with
    | none => exact Or.inl rfl
    | some old => exact Or.inr (mem_of_lookup found)
  · exact Or.inl inside

end

theorem mem_listed
    {sets : Sets} {found : Fetch} :
    found ∈ listed sets ↔
      ∃ packages name entries,
        (found.ours, (found.upstream, packages)) ∈ sets ∧
          (name, entries) ∈ packages ∧ found.entry ∈ entries := by
  rw [listed, List.mem_flatMap]
  constructor
  · rintro ⟨⟨ours, upstream, packages⟩, inSets, member⟩
    rcases List.mem_flatMap.1 member with ⟨⟨name, entries⟩, inPackages, mapped⟩
    rcases List.mem_map.1 mapped with ⟨entry, inEntries, rfl⟩
    exact ⟨packages, name, entries, inSets, inPackages, inEntries⟩
  · rintro ⟨packages, name, entries, inSets, inPackages, inEntries⟩
    refine ⟨_, inSets, List.mem_flatMap.2 ⟨_, inPackages, ?_⟩⟩
    exact List.mem_map.2 ⟨found.entry, inEntries, rfl⟩

/-- A stanza is added to the pinned set of its suite. -/
theorem mem_listed_addEntry
    {suite : Suite} {sets : Sets} {entry : Entry} {found : Fetch}
    (member : found ∈ listed (addEntry suite sets entry)) :
    (∃ upstream, { found with upstream } ∈ listed sets) ∨
      found.ours = suite.ours ∧ found.entry = entry := by
  rcases mem_listed.1 member with
    ⟨packages, name, entries, inSets, inPackages, inEntries⟩
  rcases mem_updateItem inSets with earlier | ⟨old, same, known⟩
  · exact
      Or.inl
        ⟨found.upstream,
          mem_listed.2 ⟨packages, name, entries, earlier, inPackages, inEntries⟩⟩
  · rcases Prod.mk.inj same with ⟨isOurs, rest⟩
    rcases Prod.mk.inj rest with ⟨-, rfl⟩
    have inOld :
        ∀ name entries, (name, entries) ∈ old.2 → found.entry ∈ entries →
          ∃ upstream, { found with upstream } ∈ listed sets := by
      intro name entries member inEntries
      rcases known with rfl | inSets
      · cases member
      · rw [← isOurs] at inSets
        exact
          ⟨old.1, mem_listed.2 ⟨old.2, name, entries, inSets, member, inEntries⟩⟩
    rcases mem_updateItem inPackages with earlier | ⟨before, same, knownBefore⟩
    · exact Or.inl (inOld name entries earlier inEntries)
    · cases same
      rcases List.mem_append.1 inEntries with earlier | new
      · rcases knownBefore with rfl | inPackages
        · cases earlier
        · exact Or.inl (inOld _ _ inPackages earlier)
      · exact Or.inr ⟨isOurs, List.mem_singleton.1 new⟩

theorem mem_listed_foldl
    {suite : Suite} {entries : List Entry} {sets : Sets} {found : Fetch}
    (member : found ∈ listed (entries.foldl (addEntry suite) sets)) :
    (∃ upstream, { found with upstream } ∈ listed sets) ∨
      suite.ours = found.ours ∧ found.entry ∈ entries := by
  induction entries generalizing sets with
  | nil => exact Or.inl ⟨found.upstream, member⟩
  | cons entry entries induction =>
      rcases induction member with ⟨upstream, earlier⟩ | ⟨ours, inside⟩
      · rcases mem_listed_addEntry earlier with known | ⟨ours, same⟩
        · exact Or.inl known
        · exact Or.inr ⟨ours.symm, List.mem_cons.2 (Or.inl same)⟩
      · exact Or.inr ⟨ours, List.mem_cons_of_mem _ inside⟩

section

variable {tools : Tools} {sets : Sets}

theorem exists_of_mem_mapM
    {α β : Type} {read : α → Option β} {items : List α} {values : List β}
    (mapped : items.mapM read = some values) {value : β}
    (member : value ∈ values) : ∃ item ∈ items, read item = some value := by
  induction items generalizing values with
  | nil =>
      cases mapped
      cases member
  | cons item items induction =>
      rw [List.mapM_cons] at mapped
      rcases Option.bind_eq_some_iff.1 mapped with ⟨first, isFirst, rest⟩
      rcases Option.bind_eq_some_iff.1 rest with ⟨others, later, same⟩
      cases same
      rcases List.mem_cons.1 member with rfl | behind
      · exact ⟨item, List.mem_cons_self, isFirst⟩
      · rcases induction later behind with ⟨found, inside, same⟩
        exact ⟨found, List.mem_cons_of_mem _ inside, same⟩

theorem candidate_mem
    {entries : List Entry} {best : Entry}
    (picked : candidate tools entries = some best) : best ∈ entries := by
  cases entries with
  | nil => cases picked
  | cons first entries =>
      rw [candidate] at picked
      induction entries generalizing first with
      | nil =>
          cases picked
          exact List.mem_singleton_self _
      | cons second entries induction =>
          rcases Option.bind_eq_some_iff.1 picked with ⟨better, chosen, rest⟩
          rcases Option.bind_eq_some_iff.1 chosen with ⟨difference, -, isBetter⟩
          have later := induction better rest
          rcases List.mem_cons.1 later with rfl | behind
          · cases isBetter
            split
            · exact List.mem_cons_of_mem _ List.mem_cons_self
            · exact List.mem_cons_self
          · exact List.mem_cons_of_mem _ (List.mem_cons_of_mem _ behind)

theorem listed_of_candidateIn
    {name : String} {home : String × (String × Packages)}
    (inSets : home ∈ sets) {fetch : Fetch}
    (found : candidateIn tools name home = some (some fetch)) :
    fetch ∈ listed sets := by
  rw [candidateIn] at found
  split at found
  · cases found
  · next entries inPackages =>
      rcases Option.map_eq_some_iff.1 found with ⟨best, picked, same⟩
      cases same
      exact
        mem_listed.2
          ⟨_, _, _, inSets, mem_of_lookup inPackages, candidate_mem picked⟩

theorem listed_of_refreshedIn
    {matching : Matching} {name : String}
    {home : String × (String × Packages)} (inSets : home ∈ sets)
    {fetch : Fetch}
    (found : refreshedIn tools matching name home = some (some fetch)) :
    fetch ∈ listed sets := by
  rcases Option.bind_eq_some_iff.1 found with ⟨picked, isCandidate, kept⟩
  cases picked with
  | none => cases kept
  | some best =>
      rcases Option.bind_eq_some_iff.1 kept with ⟨refreshed, -, same⟩
      have isBest : best = fetch := by
        cases refreshed with
        | false => cases same
        | true => exact Option.some.inj (Option.some.inj same)
      rw [isBest] at isCandidate
      exact listed_of_candidateIn inSets isCandidate

/-- The results of a loop over names and pinned sets. -/
theorem listed_of_mapM
    {names : List String}
    {read : String → String × (String × Packages) → Option (Option Fetch)}
    (sound :
      ∀ name home fetch, home ∈ sets → read name home = some (some fetch) →
        fetch ∈ listed sets)
    {found : List (List (Option Fetch))}
    (mapped : (names.mapM fun name => sets.mapM (read name)) = some found)
    {fetch : Fetch} (member : some fetch ∈ found.flatten) :
    fetch ∈ listed sets := by
  rcases List.mem_flatten.1 member with ⟨row, inFound, inRow⟩
  rcases exists_of_mem_mapM mapped inFound with ⟨name, -, rowRead⟩
  rcases exists_of_mem_mapM rowRead inRow with ⟨home, inSets, read⟩
  exact sound name home fetch inSets read

/-- A cached package goes where a stanza with its digest says. -/
structure IsCachedDeb (tools : Tools) (sets : Sets) (url : String)
    (source : Source) (entry : Entry) : Prop where
  known :
    ∃ found ∈ listed sets, found.entry = entry ∧ found.url = url
  cached :
    ∃ content, source = .cache content ∧ tools.sha256 content = entry.sha256

theorem isCachedDeb_matchCached
    {before after : Matching} {cached : Cached}
    (sound :
      ∀ item ∈ before.debs, IsCachedDeb tools sets item.1 item.2.1 item.2.2)
    (matched : matchCached tools sets before cached = some after) :
    ∀ item ∈ after.debs, IsCachedDeb tools sets item.1 item.2.1 item.2.2 := by
  rcases Option.bind_eq_some_iff.1 matched with ⟨⟨name, version⟩, -, done⟩
  dsimp only at done
  split at done
  · cases done
    exact sound
  · cases done
    have inHomes :
        ∀ home ∈ homes tools sets cached,
          IsCachedDeb tools sets home.url (.cache cached.content)
            home.entry := by
      intro home member
      rcases List.mem_filter.1 member with ⟨inSets, same⟩
      rw [Bool.and_eq_true, decide_eq_true_iff, decide_eq_true_iff] at same
      exact ⟨⟨home, inSets, rfl, rfl⟩, ⟨cached.content, rfl, same.2.symm⟩⟩
    revert inHomes
    generalize homes tools sets cached = found
    intro inHomes
    dsimp only
    revert sound
    generalize before.debs = debs
    intro sound
    induction found generalizing debs with
    | nil => exact sound
    | cons home found induction =>
        rcases List.forall_mem_cons.1 inHomes with ⟨first, rest⟩
        rw [List.foldl_cons]
        refine induction rest _ fun item member => ?_
        rcases mem_setItem member with rfl | earlier
        · exact first
        · exact sound item earlier

/-- Only what the pinned sets list is selected. -/
theorem select_sound
    {cache : List Cached} {packages : List String} {debs : Debs}
    {fetches : List Fetch}
    (selected : select tools sets cache packages = some (debs, fetches)) :
    (∀ item ∈ debs, IsCachedDeb tools sets item.1 item.2.1 item.2.2) ∧
      ∀ fetch ∈ fetches, fetch ∈ listed sets := by
  rcases Option.bind_eq_some_iff.1 selected with ⟨matching, matched, rest⟩
  rcases Option.bind_eq_some_iff.1 rest with ⟨refreshed, isRefreshed, rest⟩
  rcases Option.bind_eq_some_iff.1 rest with ⟨requested, isRequested, same⟩
  cases same
  constructor
  · exact
      Machines.run_invariant
        (fun matching : Matching =>
          ∀ item ∈ matching.debs,
            IsCachedDeb tools sets item.1 item.2.1 item.2.2)
        (List.forall_mem_nil _)
        (fun _ _ _ sound stepped => isCachedDeb_matchCached sound stepped)
        matched
  · intro fetch member
    rw [List.reduceOption_mem_iff] at member
    rcases List.mem_append.1 member with inRefreshed | inRequested
    · exact
        listed_of_mapM
          (fun _ _ _ inSets found => listed_of_refreshedIn inSets found)
          isRefreshed inRefreshed
    · exact
        listed_of_mapM
          (fun _ _ _ inSets found => listed_of_candidateIn inSets found)
          isRequested inRequested

end

end Confos.Apt.MirrorSelection
