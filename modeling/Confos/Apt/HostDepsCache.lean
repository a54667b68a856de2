import Confos.Apt.HostDeps

/-!
# What the package cache of `host-deps` may stand for

The cache is no authority of its own: what a run takes from it, the manifest
lists under its present hash.  The manifest is checked line by line, but the
packages are handed over by their names; the two agree exactly for a directory
without a package that the manifest does not list.
-/

namespace Confos.Apt.HostDeps

open Confos.Library.ByteStrings
open Confos.Library.Text

/-! ## What a manifest says -/

/-- The manifest lists a file under its present hash. -/
def Lists (tools : Tools) (directory : Directory) (manifest : Bytes)
    (name : Name) (content : Bytes) : Prop :=
  ∃ line ∈ sums manifest, ∃ path,
    tools.checkLine line = some (tools.sha256 content, path) ∧
      tools.LeadsTo directory path name

/-- The manifest has a hash for a file. -/
def HasSum (tools : Tools) (directory : Directory) (manifest : Bytes)
    (name : Name) : Prop :=
  ∃ line ∈ sums manifest, ∃ digest path,
    tools.checkLine line = some (digest, path) ∧
      tools.LeadsTo directory path name

/-- The manifest is for this request and lists every package there is. -/
def Vouches (tools : Tools) (request : Request) (directory : Directory)
    (manifest : Bytes) : Prop :=
  (∀ entry ∈ request.entries, entry ∈ grepLines manifest) ∧
    ∀ name content,
      isDeb name = true → directory.file? name = some content →
        Lists tools directory manifest name content

/-- What a run hands to apt or leaves at, the manifest vouches for. -/
def NeverAuthority (tools : Tools) (request : Request)
    (cache : Option Directory) (run : Run) : Prop :=
  run.handed ≠ [] ∨ run.warm = true →
    ∃ directory manifest,
      cache = some directory ∧
        directory.file? manifestName = some manifest ∧
          Vouches tools request directory manifest

/--
An accepted manifest that is put to use has a hash for every package of the
directory, and is for a request whose entries are single lines.
-/
def HasSums (tools : Tools) (request : Request) (cache : Option Directory)
    (installed : Name → Option Bytes) : Prop :=
  manifestOk tools request cache = true →
    debs (cache.getD []) ≠ [] ∨
        versionsMatch request installed cache = true →
      (∀ entry ∈ request.entries, newline ∉ entry) ∧
        ∀ directory manifest,
          cache = some directory →
            directory.file? manifestName = some manifest →
              ∀ name content,
                isDeb name = true → directory.file? name = some content →
                  HasSum tools directory manifest name

/-! ## Reading the manifest -/

theorem mem_of_mem_linesBy
    {isEnd : UInt8 → Bool} {text line : Bytes}
    (isLine : line ∈ linesBy isEnd text) : line ∈ text.splitOnP isEnd := by
  rw [linesBy] at isLine
  split at isLine
  · exact (List.dropLast_prefix _).subset isLine
  · exact isLine

theorem newline_notMem_of_mem_grepLines
    {text line : Bytes} (isLine : line ∈ grepLines text) :
    newline ∉ line := by
  intro inside
  have solid :=
    eq_false_of_mem_splitOnP (mem_of_mem_linesBy isLine) inside
  exact absurd solid (by decide)

/-- A pattern of one line is looked for as it is. -/
theorem grep_eq_true_iff
    {pattern text : Bytes} (oneLine : newline ∉ pattern) :
    grep pattern text = true ↔ pattern ∈ grepLines text := by
  have different : ∀ byte ∈ pattern, (byte == newline) = false := by
    intro byte inside
    rw [beq_eq_false_iff_ne]
    rintro rfl
    exact oneLine inside
  have whole : pattern.splitOn newline = [pattern] :=
    List.splitOnP_eq_singleton different
  rw [grep, whole, List.any_eq_true]
  constructor
  · rintro ⟨line, isLine, found⟩
    rw [List.contains_iff_mem, List.mem_singleton] at found
    exact found ▸ isLine
  · intro isLine
    exact ⟨pattern, isLine, by simp⟩

theorem manifestOk_eq_true_iff
    {tools : Tools} {request : Request} {cache : Option Directory} :
    manifestOk tools request cache = true ↔
      ∃ directory manifest,
        cache = some directory ∧
          directory.file? manifestName = some manifest ∧
            (∀ entry ∈ request.entries, grep entry manifest = true) ∧
              (sums manifest = [] ∨
                tools.sha256sumCheck directory (sums manifest) = true) := by
  cases cache with
  | none => simp [manifestOk]
  | some directory =>
      cases found : directory.file? manifestName with
      | none => simp [manifestOk, found]
      | some manifest =>
          simp [manifestOk, found, Request.entries, and_assoc]

/-- What a path leads to is what is read there. -/
theorem Tools.read_of_leadsTo
    {tools : Tools} {directory : Directory} {path name : Name}
    {content : Bytes} (there : directory.file? name = some content)
    (leads : tools.LeadsTo directory path name) :
    tools.read directory path = some content := by
  rcases leads with rfl | ⟨absent, leads⟩
  · have present : (directory.lookup path).isSome = true := by
      cases found : directory.lookup path with
      | none =>
          rw [Directory.file?, found] at there
          cases there
      | some entry => rfl
    rw [Tools.read, if_pos present, there]
  · rw [Tools.read, absent, leads]
    exact there

/-- A checked hash is the present one. -/
theorem lists_of_hasSum
    {tools : Tools} {directory : Directory} {manifest : Bytes} {name : Name}
    {content : Bytes}
    (checked :
      sums manifest = [] ∨
        tools.sha256sumCheck directory (sums manifest) = true)
    (there : directory.file? name = some content)
    (hasSum : HasSum tools directory manifest name) :
    Lists tools directory manifest name content := by
  rcases hasSum with ⟨line, isSum, digest, path, parsed, leads⟩
  rcases checked with empty | checked
  · rw [empty] at isSum
    cases isSum
  · simp only [Tools.sha256sumCheck, Bool.and_eq_true,
      List.all_eq_true] at checked
    have present :=
      checked.2 (digest, path) (List.mem_filterMap.2 ⟨line, isSum, parsed⟩)
    rw [Tools.read_of_leadsTo there leads, decide_eq_true_eq,
      Option.map_some, Option.some.injEq] at present
    exact ⟨line, isSum, path, present ▸ parsed, leads⟩

theorem Lists.hasSum
    {tools : Tools} {directory : Directory} {manifest : Bytes} {name : Name}
    {content : Bytes} (lists : Lists tools directory manifest name content) :
    HasSum tools directory manifest name := by
  rcases lists with ⟨line, isSum, path, parsed, leads⟩
  exact ⟨line, isSum, tools.sha256 content, path, parsed, leads⟩

/-! ## The run -/

/-- When a run makes use of the directory. -/
theorem run_uses_iff
    {tools : Tools} {request : Request} {cache : Option Directory}
    {installs : Bool} {installed : Name → Option Bytes} :
    (run tools request cache installs installed).handed ≠ [] ∨
        (run tools request cache installs installed).warm = true ↔
      manifestOk tools request cache = true ∧
        (debs (cache.getD []) ≠ [] ∨
          versionsMatch request installed cache = true) := by
  rw [run]
  by_cases accepted : manifestOk tools request cache = true
  · rw [if_pos accepted]
    by_cases none : debs (cache.getD []) = []
    · simp [none, accepted]
    · cases installs with
      | true => simp [none, accepted]
      | false => simp [none, accepted]
  · simp [accepted]

/-- The cache is no authority exactly if an accepted manifest has a hash for
every package of the directory. -/
theorem run_neverAuthority_iff
    (tools : Tools) (request : Request) (cache : Option Directory)
    (installs : Bool) (installed : Name → Option Bytes) :
    NeverAuthority tools request cache
        (run tools request cache installs installed) ↔
      HasSums tools request cache installed := by
  rw [NeverAuthority, run_uses_iff]
  constructor
  · intro never accepted used
    rcases never ⟨accepted, used⟩ with
      ⟨directory, manifest, rfl, there, named, lists⟩
    refine ⟨fun entry isEntry => ?_, ?_⟩
    · exact newline_notMem_of_mem_grepLines (named entry isEntry)
    · rintro other found same thereToo name content deb file
      cases same
      rw [there] at thereToo
      cases thereToo
      exact (lists name content deb file).hasSum
  · rintro hasSums ⟨accepted, used⟩
    rcases hasSums accepted used with ⟨oneLine, sums⟩
    rcases manifestOk_eq_true_iff.1 accepted with
      ⟨directory, manifest, rfl, there, found, checked⟩
    refine ⟨directory, manifest, rfl, there, ?_, ?_⟩
    · intro entry isEntry
      exact
        (grep_eq_true_iff (oneLine entry isEntry)).1 (found entry isEntry)
    · intro name content deb file
      exact
        lists_of_hasSum checked file
          (sums directory manifest rfl there name content deb file)

/-! ## What a cold run leaves -/

section

variable {directory : Directory} {name other : Name} {content : Bytes}

theorem lookup_filter_ne :
    (directory.filter (·.1 ≠ name)).lookup other =
      if other = name then none else directory.lookup other := by
  induction directory with
  | nil => simp
  | cons entry directory induction =>
      by_cases removed : entry.1 = name
      · rw [List.filter_cons_of_neg (by simpa using removed), induction]
        split
        · rfl
        · next different =>
            have unlike : (other == entry.1) = false := by
              rw [removed]
              simpa using different
            rw [List.lookup_cons, unlike]
      · rw [List.filter_cons_of_pos (by simpa using removed),
          List.lookup_cons, List.lookup_cons, induction]
        by_cases found : other = entry.1
        · have kept : ¬other = name := fun same => removed (found ▸ same)
          rw [if_neg kept]
          simp [found, removed]
        · have unlike : (other == entry.1) = false := by simpa using found
          rw [unlike]

theorem lookup_remove :
    (directory.remove name).lookup other =
      if other = name then none else directory.lookup other :=
  lookup_filter_ne

theorem file?_put :
    (directory.put name content).file? other =
      if other = name then some content else directory.file? other := by
  rw [Directory.file?, Directory.file?, Directory.put, List.lookup_append,
    lookup_filter_ne, List.lookup_cons, List.lookup_nil]
  by_cases same : other = name
  · rw [if_pos same, if_pos same, same, beq_self_eq_true]
    rfl
  · rw [if_neg same, if_neg same, beq_false_of_ne same, Option.or_none]

theorem file?_foldl_append
    {front : Bytes} (there : directory.file? name = some front) :
    (((content.map (Change.append name)).foldl change directory).file? other =
      if other = name then
        some (front ++ content)
      else
        directory.file? other) := by
  induction content generalizing directory front with
  | nil =>
      split
      · next same =>
          rw [same, List.append_nil]
          exact there
      · rfl
  | cons byte content induction =>
      have appended :
          (directory.put name (front ++ [byte])).file? name =
            some (front ++ [byte]) := by
        rw [file?_put, if_pos rfl]
      rw [List.map_cons, List.foldl_cons]
      simp only [change, there]
      rw [induction appended, file?_put, List.append_assoc]
      split
      · rfl
      · rfl

/-- Writing a file changes that file. -/
theorem file?_foldl_writing :
    ((writing name content).foldl change directory).file? other =
      if other = name then some content else directory.file? other := by
  have created : (directory.put name []).file? name = some [] := by
    rw [file?_put, if_pos rfl]
  rw [writing, List.foldl_cons, change, file?_foldl_append created,
    file?_put, List.nil_append]
  split
  · rfl
  · rfl

theorem file?_foldl_writings
    {archives : List (Name × Bytes)}
    (absent : other ∉ archives.map (·.1)) :
    ((archives.flatMap fun file => writing file.1 file.2).foldl change
        directory).file? other =
      directory.file? other := by
  induction archives generalizing directory with
  | nil => rfl
  | cons file archives induction =>
      rcases not_or.1 (List.mem_cons.not.1 absent) with ⟨different, later⟩
      rw [List.flatMap_cons, List.foldl_append, induction later,
        file?_foldl_writing, if_neg different]

theorem file?_of_mem_archives
    {archives : List (Name × Bytes)} (nodup : (archives.map (·.1)).Nodup)
    (isArchive : (name, content) ∈ archives) :
    ((archives.flatMap fun file => writing file.1 file.2).foldl change
        directory).file? name =
      some content := by
  induction archives generalizing directory with
  | nil => cases isArchive
  | cons file archives induction =>
      rw [List.map_cons, List.nodup_cons] at nodup
      rw [List.flatMap_cons, List.foldl_append]
      rcases List.mem_cons.1 isArchive with rfl | later
      · rw [file?_foldl_writings nodup.1, file?_foldl_writing, if_pos rfl]
      · exact induction nodup.2 later

theorem lookup_foldl_remove {names : List Name} :
    ((names.map Change.remove).foldl change directory).lookup other =
      if other ∈ names then none else directory.lookup other := by
  induction names generalizing directory with
  | nil => simp
  | cons name names induction =>
      rw [List.map_cons, List.foldl_cons, change, induction, lookup_remove]
      by_cases same : other = name
      · simp [same]
      · simp [same]

theorem file?_foldl_remove {names : List Name} :
    ((names.map Change.remove).foldl change directory).file? other =
      if other ∈ names then none else directory.file? other := by
  rw [Directory.file?, Directory.file?, lookup_foldl_remove]
  by_cases removed : other ∈ names
  · rw [if_pos removed, if_pos removed]
  · rw [if_neg removed, if_neg removed]

end

/-! ## Lines of a manifest -/

/-- A text of whole lines. -/
def Ended (text : Bytes) : Prop :=
  text = [] ∨ text.getLast? = some newline

theorem ended_concat (text : Bytes) : Ended (text ++ [newline]) :=
  Or.inr (List.getLast?_concat ..)

theorem ended_append
    {front back : Bytes} (frontEnded : Ended front) (backEnded : Ended back) :
    Ended (front ++ back) := by
  rcases backEnded with rfl | last
  · rw [List.append_nil]
    exact frontEnded
  · refine Or.inr ?_
    rw [List.getLast?_append, last]
    rfl

theorem ended_flatMap
    {α : Type} {items : List α} {write : α → Bytes}
    (each : ∀ item, Ended (write item)) : Ended (items.flatMap write) := by
  induction items with
  | nil => exact Or.inl rfl
  | cons item items induction =>
      rw [List.flatMap_cons]
      exact ended_append (each item) induction

theorem mem_linesOf
    {front line : Bytes} (back : Bytes) (nonempty : line ≠ [])
    (oneLine : newline ∉ line) (ended : Ended front) :
    line ∈ linesOf (front ++ (line ++ newline :: back)) := by
  have different : ∀ byte ∈ line, decide (byte = newline) = false := by
    intro byte inside
    rw [decide_eq_false_iff_not]
    rintro rfl
    exact oneLine inside
  have last :
      (line ++ newline :: back).splitOnP (· = newline) =
        line :: back.splitOnP (· = newline) := by
    rw [List.splitOnP_append_cons _ _ (by simp),
      List.splitOnP_eq_singleton different]
    rfl
  have isPiece :
      line ∈
        (front ++ (line ++ newline :: back)).splitOnP (· = newline) := by
    rcases ended with rfl | ended
    · rw [List.nil_append, last]
      exact List.mem_cons_self
    · rcases List.getLast?_eq_some_iff.1 ended with ⟨start, rfl⟩
      rw [List.append_assoc, List.singleton_append,
        List.splitOnP_append_cons _ _ (by simp), last]
      exact List.mem_append_right _ List.mem_cons_self
  rw [linesOf, linesBy]
  split
  · next dropped =>
      rcases List.getLast?_eq_some_iff.1 dropped with ⟨kept, pieces⟩
      rw [pieces] at isPiece ⊢
      rw [List.dropLast_concat]
      rcases List.mem_append.1 isPiece with inside | isLast
      · exact inside
      · exact absurd (List.mem_singleton.1 isLast) nonempty
  · exact isPiece

theorem mem_substituted
    {lines : List Bytes} {line : Bytes} (isLine : line ∈ lines)
    (nonempty : line ≠ []) (noNul : (0 : UInt8) ∉ line) :
    line ∈ substituted lines := by
  have kept : line.filter (· ≠ 0) = line := by
    rw [List.filter_eq_self]
    intro byte inside
    rw [decide_eq_true_eq]
    rintro rfl
    exact noNul inside
  have mapped :
      line ∈ lines.map fun line => line.filter (· ≠ 0) :=
    List.mem_map.2 ⟨line, isLine, kept⟩
  rw [substituted]
  generalize (lines.map fun line => line.filter (· ≠ 0)) = cleaned at mapped
  induction cleaned using List.reverseRecOn with
  | nil => cases mapped
  | append_singleton front last induction =>
      rw [List.rdropWhile_concat]
      split
      · next empty =>
          rcases List.mem_append.1 mapped with inside | isLast
          · exact induction inside
          · rw [List.mem_singleton.1 isLast] at nonempty
            exact absurd (by simpa using empty) nonempty
      · exact mapped

/-! ## A finished run -/

/-- Packages of a transaction, and lines that `sha256sum` reads back. -/
structure Transaction.Sound (tools : Tools) (transaction : Transaction) :
    Prop where
  debs : ∀ file ∈ transaction.archives, isDeb file.1 = true
  nodup : (transaction.archives.map (·.1)).Nodup
  ended : Ended transaction.resolved
  nonempty :
    ∀ file ∈ transaction.archives,
      tools.sumLine (tools.sha256 file.2) file.1 ≠ []
  oneLine :
    ∀ file ∈ transaction.archives,
      newline ∉ tools.sumLine (tools.sha256 file.2) file.1
  noNul :
    ∀ file ∈ transaction.archives,
      (0 : UInt8) ∉ tools.sumLine (tools.sha256 file.2) file.1
  readBack :
    ∀ file ∈ transaction.archives,
      tools.checkLine (tools.sumLine (tools.sha256 file.2) file.1) =
        some (tools.sha256 file.2, file.1)

section

variable {tools : Tools} {request : Request} {transaction : Transaction}
  {directory : Directory} {changes : Nat}

theorem file?_of_notMem_debs
    {name : Name} (deb : isDeb name = true) (absent : name ∉ debs directory) :
    directory.file? name = none := by
  rw [debs, List.mem_filter, not_and] at absent
  have missing : directory.lookup name = none := by
    rw [List.lookup_eq_none_iff]
    intro entry inside
    rw [bne_iff_ne]
    rintro rfl
    exact absent (List.mem_map_of_mem inside) deb
  rw [Directory.file?, missing]

/-- Behind the removals there is no package. -/
theorem file?_removed
    {name : Name} (deb : isDeb name = true) :
    (((debs directory ++ [manifestName]).map Change.remove).foldl change
        directory).file? name =
      none := by
  rw [file?_foldl_remove]
  split
  · rfl
  · next kept =>
      exact
        file?_of_notMem_debs deb fun there =>
          kept (List.mem_append_left _ there)

/-- What a finished run leaves under the name of a package. -/
theorem afterCold_eq
    (noFolder :
      ∀ name ∈ debs directory ++ [manifestName],
        isFolder directory name = false)
    (finished :
      (installCold tools request transaction directory).length ≤ changes) :
    afterCold tools request transaction directory changes =
      (writing manifestName (manifestText tools request transaction)).foldl
        change
        ((transaction.archives.flatMap fun file =>
          writing file.1 file.2).foldl change
            (((debs directory ++ [manifestName]).map Change.remove).foldl
              change directory)) := by
  have none :
      (debs directory ++ [manifestName]).any (isFolder directory) = false := by
    rw [List.any_eq_false]
    intro name stale
    rw [noFolder name stale]
    exact Bool.false_ne_true
  have all :
      (debs directory ++ [manifestName]).filter
          (fun name => !isFolder directory name) =
        debs directory ++ [manifestName] := by
    rw [List.filter_eq_self]
    intro name stale
    rw [noFolder name stale]
    rfl
  rw [afterCold, List.take_of_length_le finished, installCold, none, all,
    if_neg Bool.false_ne_true, List.foldl_append, List.foldl_append]

theorem sumLine_mem_sums
    (sound : transaction.Sound tools) {file : Name × Bytes}
    (isArchive : file ∈ transaction.archives) :
    tools.sumLine (tools.sha256 file.2) file.1 ∈
      sums (manifestText tools request transaction) := by
  have isLine :
      utf8Bytes "sha256 " ++ tools.sumLine (tools.sha256 file.2) file.1 ∈
        linesOf (manifestText tools request transaction) := by
    have oneLine :
        newline ∉
          utf8Bytes "sha256 " ++
            tools.sumLine (tools.sha256 file.2) file.1 := by
      rw [List.mem_append, not_or]
      exact ⟨by decide, sound.oneLine file isArchive⟩
    have nonempty :
        utf8Bytes "sha256 " ++
            tools.sumLine (tools.sha256 file.2) file.1 ≠ [] := by
      rw [Ne, List.append_eq_nil_iff, not_and_or]
      exact Or.inl (by decide)
    rcases List.append_of_mem isArchive with ⟨earlier, later, all⟩
    have cut :
        manifestText tools request transaction =
          ((request.entries.flatMap fun entry => entry ++ [newline]) ++
              transaction.resolved ++
                earlier.flatMap fun file =>
                  utf8Bytes "sha256 " ++
                    (tools.sumLine (tools.sha256 file.2) file.1 ++
                      [newline])) ++
            ((utf8Bytes "sha256 " ++
                tools.sumLine (tools.sha256 file.2) file.1) ++
              newline :: later.flatMap fun file =>
                utf8Bytes "sha256 " ++
                  (tools.sumLine (tools.sha256 file.2) file.1 ++
                    [newline])) := by
      rw [manifestText, all, List.flatMap_append, List.flatMap_cons]
      simp only [List.append_assoc, List.singleton_append]
    rw [cut]
    refine mem_linesOf _ nonempty oneLine ?_
    refine ended_append (ended_append ?_ sound.ended) ?_
    · exact ended_flatMap ended_concat
    · refine ended_flatMap fun file => ?_
      rw [← List.append_assoc]
      exact ended_concat _
  have stripped :
      stripStart (utf8Bytes "sha256 ")
          (utf8Bytes "sha256 " ++
            tools.sumLine (tools.sha256 file.2) file.1) =
        some (tools.sumLine (tools.sha256 file.2) file.1) := by
    rw [stripStart,
      if_pos (List.isPrefixOf_iff_prefix.2 (List.prefix_append _ _)),
      List.drop_left]
  exact
    mem_substituted (List.mem_filterMap.2 ⟨_, isLine, stripped⟩)
      (sound.nonempty file isArchive) (sound.noNul file isArchive)

/-- Behind a finished run nothing but its own packages is in the directory,
and its manifest has a hash for each of them. -/
theorem hasSums_of_finished
    (sound : transaction.Sound tools)
    (noFolder :
      ∀ name ∈ debs directory ++ [manifestName],
        isFolder directory name = false)
    (finished :
      (installCold tools request transaction directory).length ≤ changes)
    {next : Request} (oneLine : ∀ entry ∈ next.entries, newline ∉ entry)
    (installed : Name → Option Bytes) :
    HasSums tools next
      (some (afterCold tools request transaction directory changes))
      installed := by
  intro _ _
  refine ⟨oneLine, ?_⟩
  rintro _ manifest same there name content deb file
  cases same
  rw [afterCold_eq noFolder finished] at there file ⊢
  rw [file?_foldl_writing, if_pos rfl, Option.some.injEq] at there
  have notManifest : name ≠ manifestName := by
    rintro rfl
    exact absurd deb (by decide)
  rw [file?_foldl_writing, if_neg notManifest] at file
  by_cases archived : name ∈ transaction.archives.map (·.1)
  · rcases List.mem_map.1 archived with ⟨archive, isArchive, rfl⟩
    rw [file?_of_mem_archives sound.nodup isArchive] at file
    exact
      ⟨_, there ▸ sumLine_mem_sums sound isArchive, _, _,
        sound.readBack archive isArchive, Or.inl rfl⟩
  · rw [file?_foldl_writings archived, file?_removed deb] at file
    cases file

end

/-! ## A killed run -/

/-- Lines of `sha256sum` for hashes of 64 digits; every file has one hash. -/
def plainTools : Tools where
  sha256 _ := List.replicate 64 0x30
  checkLine line :=
    if (line.drop 64).take 2 = [blank, blank] then
      some (line.take 64, line.drop 66)
    else
      none
  sumLine digest name := digest ++ ([blank, blank] ++ name)
  entryAt _ := none
  outside _ := none

def ovmfRequest : Request where
  snapshot := utf8Bytes "20260101T000000Z"
  codename := utf8Bytes "noble"
  packages := [utf8Bytes "ovmf"]

def ovmfTransaction : Transaction where
  archives := [(utf8Bytes "ovmf_1_all.deb", utf8Bytes "!<arch>")]
  resolved := utf8Bytes "resolved ovmf 1\n"

/-- The directory of a run killed in front of its first checksum line. -/
def killedBeforeSums : Directory :=
  afterCold plainTools ovmfRequest ovmfTransaction [] 81

/-- The next run hands over a package that no line of the manifest lists. -/
theorem run_uses_unlisted :
    ¬NeverAuthority plainTools ovmfRequest (some killedBeforeSums)
      (run plainTools ovmfRequest (some killedBeforeSums) true fun _ =>
        some (utf8Bytes "1")) := by
  intro never
  have used :
      (run plainTools ovmfRequest (some killedBeforeSums) true fun _ =>
        some (utf8Bytes "1")) =
        { handed := [utf8Bytes "ovmf_1_all.deb"], warm := true } := by
    decide +kernel
  rcases never (Or.inr (by rw [used])) with
    ⟨directory, manifest, same, there, -, lists⟩
  rw [← Option.some.inj same] at there lists
  rcases lists (utf8Bytes "ovmf_1_all.deb") (utf8Bytes "!<arch>") (by decide)
      (by decide +kernel) with
    ⟨line, isSum, -⟩
  have none :
      (killedBeforeSums.file? manifestName).map sums = some [] := by
    decide +kernel
  rw [there, Option.map_some, Option.some.injEq] at none
  rw [none] at isSum
  cases isSum

end Confos.Apt.HostDeps
