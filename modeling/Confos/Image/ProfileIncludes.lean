import Confos.Image.ProfileLinks
import Confos.Library.PathTexts
import Confos.Library.Text

/-!
# Include settings of staged profiles

mkosi reads the settings of a profile from its configuration files, a value on
the line of its key and on the indented lines below it, and from the dropin
directories of `mkosi.conf.d`.  The check before staging looks at one line at a
time, and enters a dropin only if it is a directory itself.
-/

namespace Confos.Image.ProfileIncludes

open Confos.Image.ProfileLinks
open Confos.Library
open Confos.Library.ByteStrings
open Confos.Library.FileTrees
open Confos.Library.PathTexts
open Confos.Library.Text

/-! ## Targets -/

/-- `escapes_root` of a path in a configuration file. -/
def targetEscapes (anchor : Path) (target : List Char) : Bool :=
  escapesRoot anchor (isAbsolute (String.ofList target))
    (components (String.ofList target))

/-- The targets of a value, with commas between them. -/
def targetsOf (value : List Char) : List (List Char) :=
  ((value.splitOn ',').map trim).filter (· ≠ [])

/-! ## The check -/

/-- The value of a line that sets `Include`. -/
def includeValue (line : List Char) : Option (List Char) := do
  let bare := (line.dropWhile isWhiteSpace).dropWhile (· = '@')
  let rest ← stripStart "Include".toList bare
  stripStart ['='] (rest.dropWhile isWhiteSpace)

def confExtension : List Char := ".conf".toList

/-- Whether the extension of a name is `conf`. -/
def hasConfExtension (name : Name) : Bool :=
  confExtension.isSuffixOf name.toList && confExtension ≠ name.toList

def configNames : List Name := ["mkosi.conf", "mkosi.local.conf"]

/-- A profile in a file system, and the links that the system follows. -/
structure Profile where
  links : Nat
  outer : Tree
  root : Path

namespace Profile

variable (profile : Profile)

def stat (rel : Path) : Option Node :=
  profile.outer.statFrom profile.links profile.root rel

def isFile (rel : Path) : Bool :=
  match profile.stat rel with
  | some (.file _) => true
  | _ => false

def isDir (rel : Path) : Bool :=
  profile.stat rel = some .folder

/-- Whether an entry is a directory itself. -/
def isRealDir (rel : Path) : Bool :=
  profile.outer.lstatFrom profile.links profile.root rel = some .folder

/-- The names in a directory, through links. -/
def readDir (rel : Path) : Option (List Name) :=
  match profile.outer.walk profile.links profile.root rel with
  | none => none
  | some place =>
      if profile.outer.node place = some .folder then
        some (profile.outer.names place)
      else
        none

/-- The text of a file, through links. -/
def readText (rel : Path) : Option String :=
  match profile.stat rel with
  | some (.file content) => utf8Text? content
  | _ => none

def rejectEscapingIncludeLines
    (profileDir : String) (anchor rel : Path) : Except String Unit :=
  match profile.readText rel with
  | none => .error s!"failed to read file {showPath rel}"
  | some text =>
      (lines text.toList).forM fun line =>
        match includeValue line with
        | none => .ok ()
        | some value =>
            (targetsOf value).forM fun target =>
              if targetEscapes anchor target then
                .error s!"--profile-dir {profileDir}: {showPath rel} has Include={String.ofList target}, which resolves outside the profile; a profile dir must be self-contained because staging re-parents it under mkosi.profiles/"
              else
                .ok ()

/-- Directories nest so deep; the system finds no longer paths. -/
def rejectEscapingIncludes (profileDir : String) :
    Nat → Path → Except String Unit
  | 0, _ => .ok ()
  | depth + 1, anchor => do
      configNames.forM fun name =>
        if profile.isFile (anchor ++ [name]) then
          profile.rejectEscapingIncludeLines profileDir anchor (anchor ++ [name])
        else
          .ok ()
      let confd := anchor ++ [mkosiConfD]
      if profile.isDir confd then
        match profile.readDir confd with
        | none => .error s!"failed to read directory {showPath confd}"
        | some names =>
            names.forM fun name =>
              if profile.isRealDir (confd ++ [name]) then
                rejectEscapingIncludes profileDir depth (confd ++ [name])
              else if hasConfExtension name then
                profile.rejectEscapingIncludeLines profileDir anchor
                  (confd ++ [name])
              else
                .ok ()
      else
        .ok ()

end Profile

/-! ## The settings of mkosi -/

def startsWithSpace (line : List Char) : Bool :=
  line.head?.any isWhiteSpace

/-- A line that is not indented, and the indented lines below it. -/
def blocks : List (List Char) → List (List Char × List (List Char))
  | [] => []
  | line :: rest =>
      if startsWithSpace line then
        blocks rest
      else
        (line, rest.takeWhile startsWithSpace) :: blocks rest

/-- The value on the line of an `Include` setting. -/
def includeSetting (line : List Char) : Option (List Char) :=
  match splitOnce '=' line with
  | some (key, value) =>
      if trim key = "Include".toList ∨ trim key = "@Include".toList then
        some value
      else
        none
  | none => none

/-- The targets on the lines of the keys. -/
def ownTargets (text : List Char) : List (List Char) :=
  (blocks (lines text)).flatMap fun block =>
    match includeSetting block.1 with
    | some value => targetsOf value
    | none => []

/-- The targets on the lines below. -/
def continuedTargets (text : List Char) : List (List Char) :=
  (blocks (lines text)).flatMap fun block =>
    match includeSetting block.1 with
    | some _ => block.2.flatMap targetsOf
    | none => []

/-- The targets of the settings: of their lines, with commas between them. -/
def mkosiTargets (text : List Char) : List (List Char) :=
  (blocks (lines text)).flatMap fun block =>
    match includeSetting block.1 with
    | some value => (value :: block.2).flatMap targetsOf
    | none => []

namespace Profile

variable (profile : Profile)

/-- The directories that mkosi parses, and how deep they nest. -/
inductive IsExtrasDir : Nat → Path → Prop where
  | top : IsExtrasDir 0 []
  | dropin
      (level : Nat) (anchor : Path) (names : List Name) (name : Name)
      (parent : IsExtrasDir level anchor)
      (listed : profile.readDir (anchor ++ [mkosiConfD]) = some names)
      (member : name ∈ names)
      (isDir : profile.isDir (anchor ++ [mkosiConfD] ++ [name]) = true) :
      IsExtrasDir (level + 1) (anchor ++ [mkosiConfD] ++ [name])

/-- The configuration files of such a directory. -/
inductive IsConfigFile (anchor : Path) : Path → Prop where
  | main (name : Name) (known : name ∈ configNames)
      (isFile : profile.isFile (anchor ++ [name]) = true) :
      IsConfigFile anchor (anchor ++ [name])
  | dropin (names : List Name) (name : Name)
      (listed : profile.readDir (anchor ++ [mkosiConfD]) = some names)
      (member : name ∈ names)
      (notDir : profile.isDir (anchor ++ [mkosiConfD] ++ [name]) = false)
      (extension : hasConfExtension name = true) :
      IsConfigFile anchor (anchor ++ [mkosiConfD] ++ [name])

/-- A target that mkosi resolves from a directory leads out of the profile. -/
def Leaves (place : Path) (target : List Char) : Prop :=
  isAbsolute (String.ofList target) = true ∨
    ¬ profile.root <+: place ∨
      climbsAbove (place.length - profile.root.length)
        (components (String.ofList target)) = true

/-- A configuration file that mkosi reads, and the directory it runs in then. -/
structure Reads
    (depth : Nat) (anchor rel place : Path) (text : String) : Prop where
  extrasDir : ∃ level < depth, profile.IsExtrasDir level anchor
  config : profile.IsConfigFile anchor rel
  content : profile.readText rel = some text
  cwd : profile.outer.walk profile.links profile.root anchor = some place

/-- No target that mkosi reads leads out of the profile. -/
def NoEscapingInclude (depth : Nat) : Prop :=
  ∀ anchor rel place text, profile.Reads depth anchor rel place text →
    ∀ target ∈ mkosiTargets text.toList, ¬ profile.Leaves place target

/-- Directories that no link leads through. -/
def IsUnlinked (anchor : Path) : Prop :=
  ∀ front, front <+: anchor →
    profile.outer.node (profile.root ++ front) = some .folder

/-- No target on a line below its key leads out of the profile, and none that
is read in a directory behind a link. -/
structure MissesNoEscape (depth : Nat) : Prop where
  continued :
    ∀ anchor rel place text, profile.Reads depth anchor rel place text →
      ∀ target ∈ continuedTargets text.toList, ¬ profile.Leaves place target
  linked :
    ∀ anchor rel place text, profile.Reads depth anchor rel place text →
      ¬ profile.IsUnlinked anchor →
        ∀ target ∈ ownTargets text.toList, ¬ profile.Leaves place target

end Profile

/-! ## One text -/

theorem equals_solid : isWhiteSpace '=' = false := by decide

theorem stripStart_self (start rest : List Char) :
    stripStart start (start ++ rest) = some rest :=
  stripStart_eq_some_iff.2 rfl

/-- A line that sets `Include` is one that the check looks at. -/
theorem includeValue_of_includeSetting
    {line value : List Char} (sets : includeSetting line = some value) :
    includeValue line = some value := by
  rw [includeSetting] at sets
  split at sets
  · next key found split =>
      split at sets
      · next known =>
          cases sets
          have whole := eq_of_splitOnce split
          rcases exists_eq_append_trim key with
            ⟨lead, tail, keyIs, leadWhite, tailWhite⟩
          have closing :
              stripStart ['='] ((tail ++ '=' :: value).dropWhile isWhiteSpace) =
                some value := by
            rw [dropWhile_append_of_white tailWhite equals_solid]
            exact stripStart_self ['='] value
          have bare :
              (line.dropWhile isWhiteSpace).dropWhile (· = '@') =
                "Include".toList ++ (tail ++ '=' :: value) := by
            rw [whole, keyIs]
            rcases known with plain | marked
            · rw [plain, List.append_assoc, List.append_assoc]
              change
                ((lead ++ 'I' :: ("nclude".toList ++ _)).dropWhile
                  isWhiteSpace).dropWhile _ = _
              rw [dropWhile_append_of_white leadWhite (by decide),
                List.dropWhile_cons_of_neg (by decide)]
              rfl
            · rw [marked, List.append_assoc, List.append_assoc]
              change
                ((lead ++ '@' :: ("Include".toList ++ _)).dropWhile
                  isWhiteSpace).dropWhile _ = _
              rw [dropWhile_append_of_white leadWhite (by decide),
                List.dropWhile_cons_of_pos (by decide)]
              change ('I' :: ("nclude".toList ++ _)).dropWhile _ = _
              rw [List.dropWhile_cons_of_neg (by decide)]
              rfl
          rw [includeValue, bare, stripStart_self]
          exact closing
      · cases sets
  · cases sets

theorem fst_mem_of_mem_blocks
    {block : List Char × List (List Char)} {lines : List (List Char)}
    (member : block ∈ blocks lines) : block.1 ∈ lines := by
  induction lines with
  | nil => cases member
  | cons line rest induction =>
      rw [blocks] at member
      split at member
      · exact List.mem_cons_of_mem _ (induction member)
      · rcases List.mem_cons.1 member with rfl | later
        · exact List.mem_cons_self
        · exact List.mem_cons_of_mem _ (induction later)

/-- Where a target of mkosi stands. -/
theorem mem_mkosiTargets_iff {text target : List Char} :
    target ∈ mkosiTargets text ↔
      target ∈ ownTargets text ∨ target ∈ continuedTargets text := by
  simp only [mkosiTargets, ownTargets, continuedTargets, List.mem_flatMap,
    ← exists_or, ← and_or_left]
  refine exists_congr fun block => and_congr_right fun _ => ?_
  cases includeSetting block.1 with
  | none => simp
  | some value => simp [List.mem_flatMap]

/-- A target on the line of its key is one that the check looks at. -/
theorem exists_includeValue_of_mem_ownTargets
    {text target : List Char} (own : target ∈ ownTargets text) :
    ∃ line ∈ lines text, ∃ value,
      includeValue line = some value ∧ target ∈ targetsOf value := by
  rcases List.mem_flatMap.1 own with ⟨block, member, inside⟩
  split at inside
  · next value sets =>
      exact
        ⟨block.1, fst_mem_of_mem_blocks member, value,
          includeValue_of_includeSetting sets, inside⟩
  · cases inside

namespace Profile

variable {profile : Profile} {profileDir : String}

theorem targetEscapes_eq_false
    {anchor rel : Path} {text : String}
    (accepted :
      profile.rejectEscapingIncludeLines profileDir anchor rel = .ok ())
    (content : profile.readText rel = some text)
    {target : List Char} (own : target ∈ ownTargets text.toList) :
    targetEscapes anchor target = false := by
  rcases exists_includeValue_of_mem_ownTargets own with
    ⟨line, lineMember, value, valueIs, inside⟩
  rw [rejectEscapingIncludeLines, content] at accepted
  have linePassed := Fallible.forM_eq_ok.1 accepted line lineMember
  rw [valueIs] at linePassed
  have passed := Fallible.forM_eq_ok.1 linePassed target inside
  split at passed
  · cases passed
  · next stays => exact Bool.eq_false_iff.2 stays

/-- What the check accepts stays in the profile, from a directory in it. -/
theorem not_leaves_of_targetEscapes
    {anchor : Path} {target : List Char}
    (stays : targetEscapes anchor target = false) :
    ¬ profile.Leaves (profile.root ++ anchor) target := by
  rw [targetEscapes, escapesRoot, Bool.or_eq_false_iff] at stays
  rw [Leaves, List.length_append, Nat.add_sub_cancel_left]
  rintro (absolute | outside | climbs)
  · rw [stays.1] at absolute
    cases absolute
  · exact outside (List.prefix_append _ _)
  · rw [stays.2] at climbs
    cases climbs

/-! ## Directories -/

theorem isName_of_mem_readDir
    {rel : Path} {names : List Name} {name : Name}
    (listed : profile.readDir rel = some names) (member : name ∈ names) :
    Tree.isName name = true := by
  rw [readDir] at listed
  split at listed
  · cases listed
  · split at listed
    · cases listed
      exact (Tree.mem_names_iff.1 member).1
    · cases listed

theorem isDir_of_readDir
    {rel : Path} {names : List Name}
    (listed : profile.readDir rel = some names) :
    profile.isDir rel = true := by
  rw [readDir] at listed
  split at listed
  · cases listed
  · next place led =>
      split at listed
      · next isFolder =>
          rw [isDir, stat, Tree.statFrom, led]
          exact decide_eq_true isFolder
      · cases listed

theorem isName_of_isExtrasDir
    {level : Nat} {anchor : Path} (extras : profile.IsExtrasDir level anchor) :
    ∀ part ∈ anchor, Tree.isName part = true := by
  induction extras with
  | top => exact List.forall_mem_nil _
  | dropin level anchor names name _ listed member _ known =>
      intro part inside
      rcases List.mem_append.1 inside with front | last
      · rcases List.mem_append.1 front with before | confd
        · exact known part before
        · rw [List.mem_singleton.1 confd]
          decide
      · rw [List.mem_singleton.1 last]
        exact isName_of_mem_readDir listed member

theorem IsUnlinked.of_prefix
    {front anchor : Path} (unlinked : profile.IsUnlinked anchor)
    (before : front <+: anchor) : profile.IsUnlinked front :=
  fun first inside => unlinked first (inside.trans before)

/-- Without links a directory is where its names say. -/
theorem walk_of_isUnlinked
    {anchor : Path} (isName : ∀ part ∈ anchor, Tree.isName part = true)
    (unlinked : profile.IsUnlinked anchor) (links : Nat) :
    profile.outer.walk links profile.root anchor =
      some (profile.root ++ anchor) := by
  induction anchor using List.reverseRecOn with
  | nil =>
      rcases Tree.walk_eq_walkNames profile.outer links with
        ⟨follow, equal⟩
      rw [equal, List.append_nil]
      rfl
  | append_singleton front name induction =>
      have led :=
        induction (fun part member => isName part (List.mem_append_left _ member))
          (unlinked.of_prefix (List.prefix_append front [name]))
      have isFolder := unlinked front (List.prefix_append front [name])
      have found := unlinked (front ++ [name]) (List.prefix_refl _)
      rw [← List.append_assoc] at found ⊢
      refine MountedTrees.walk_append_of_walk_zero led isFolder ?_
      rw [Tree.walk_cons_folder (isName name (by simp)) found]
      rfl

/-- A real directory of a directory without links is one to enter. -/
theorem isRealDir_of_isUnlinked
    {rel : Path} {name : Name}
    (isName : ∀ part ∈ rel ++ [name], Tree.isName part = true)
    (unlinked : profile.IsUnlinked (rel ++ [name])) :
    profile.isRealDir (rel ++ [name]) = true := by
  have led :=
    walk_of_isUnlinked
      (fun part member => isName part (List.mem_append_left _ member))
      (unlinked.of_prefix (List.prefix_append rel [name])) profile.links
  have found := unlinked (rel ++ [name]) (List.prefix_refl _)
  rw [← List.append_assoc] at found
  have named :
      profile.outer.entryFrom profile.links profile.root (rel ++ [name]) =
        some (profile.root ++ rel ++ [name]) := by
    rw [Tree.entryFrom, List.getLast?_concat]
    dsimp only
    rw [if_pos (isName name (by simp)), List.dropLast_concat, led]
    rfl
  rw [isRealDir, Tree.lstatFrom, named]
  exact decide_eq_true found

/-- A real directory is one through links too. -/
theorem isDir_of_isRealDir
    {rel : Path} {names : List Name} {name : Name}
    (listed : profile.readDir rel = some names) (member : name ∈ names)
    (real : profile.isRealDir (rel ++ [name]) = true) :
    profile.isDir (rel ++ [name]) = true := by
  have isName := isName_of_mem_readDir listed member
  have found := of_decide_eq_true real
  rw [Tree.lstatFrom, Tree.entryFrom, List.getLast?_concat] at found
  dsimp only at found
  rw [if_pos isName, List.dropLast_concat] at found
  rcases Option.bind_eq_some_iff.1 found with ⟨entry, named, isFolder⟩
  rcases Option.map_eq_some_iff.1 named with ⟨place, led, rfl⟩
  have isDirectory := of_decide_eq_true (isDir_of_readDir listed)
  rw [stat, Tree.statFrom, led, Option.bind_some] at isDirectory
  have whole :
      profile.outer.walk profile.links profile.root (rel ++ [name]) =
        some (place ++ [name]) := by
    refine MountedTrees.walk_append_of_walk_zero led isDirectory ?_
    rw [Tree.walk_cons_folder isName isFolder]
    rfl
  rw [isDir, stat, Tree.statFrom, whole]
  exact decide_eq_true isFolder

/-- What an accepted directory has been checked for. -/
theorem of_rejectEscapingIncludes
    {depth : Nat} {anchor : Path}
    (accepted :
      profile.rejectEscapingIncludes profileDir (depth + 1) anchor = .ok ()) :
    (∀ name ∈ configNames, profile.isFile (anchor ++ [name]) = true →
        profile.rejectEscapingIncludeLines profileDir anchor
          (anchor ++ [name]) = .ok ()) ∧
      ∀ names, profile.readDir (anchor ++ [mkosiConfD]) = some names →
        ∀ name ∈ names,
          (if profile.isRealDir (anchor ++ [mkosiConfD] ++ [name]) then
              profile.rejectEscapingIncludes profileDir depth
                (anchor ++ [mkosiConfD] ++ [name])
            else if hasConfExtension name then
              profile.rejectEscapingIncludeLines profileDir anchor
                (anchor ++ [mkosiConfD] ++ [name])
            else
              .ok ()) =
            .ok () := by
  rw [rejectEscapingIncludes] at accepted
  rcases Fallible.bind_eq_ok.1 accepted with ⟨_, main, dropins⟩
  constructor
  · intro name known isFile
    have passed := Fallible.forM_eq_ok.1 main name known
    rwa [if_pos isFile] at passed
  · intro names listed name member
    dsimp only at dropins
    rw [if_pos (isDir_of_readDir listed), listed] at dropins
    exact Fallible.forM_eq_ok.1 dropins name member

/-- The check has come to each extras dir that no link leads through. -/
theorem accepted_of_isExtrasDir
    {depth level : Nat} {anchor : Path}
    (accepted : profile.rejectEscapingIncludes profileDir depth [] = .ok ())
    (extras : profile.IsExtrasDir level anchor) (shallow : level ≤ depth)
    (unlinked : profile.IsUnlinked anchor) :
    profile.rejectEscapingIncludes profileDir (depth - level) anchor =
      .ok () := by
  induction extras with
  | top => exact accepted
  | dropin level anchor names name parent listed member isDir induction =>
      have before : anchor <+: anchor ++ [mkosiConfD] ++ [name] := by
        rw [List.append_assoc]
        exact List.prefix_append _ _
      have here := induction (by omega) (unlinked.of_prefix before)
      rw [show depth - level = depth - (level + 1) + 1 by omega] at here
      have passed := (of_rejectEscapingIncludes here).2 names listed name member
      rwa [if_pos
        (isRealDir_of_isUnlinked
          (isName_of_isExtrasDir (parent.dropin _ _ _ _ listed member isDir))
          unlinked)] at passed

/-- The check has read each configuration file there. -/
theorem rejectEscapingIncludeLines_of_isConfigFile
    {depth : Nat} {anchor rel : Path}
    (accepted :
      profile.rejectEscapingIncludes profileDir (depth + 1) anchor = .ok ())
    (config : profile.IsConfigFile anchor rel) :
    profile.rejectEscapingIncludeLines profileDir anchor rel = .ok () := by
  cases config with
  | main name known isFile =>
      exact (of_rejectEscapingIncludes accepted).1 name known isFile
  | dropin names name listed member notDir extension =>
      have passed :=
        (of_rejectEscapingIncludes accepted).2 names listed name member
      have notReal :
          ¬ profile.isRealDir (anchor ++ [mkosiConfD] ++ [name]) = true := by
        intro real
        rw [isDir_of_isRealDir listed member real] at notDir
        cases notDir
      rwa [if_neg notReal, if_pos extension] at passed

/--
An accepted profile has no escaping target exactly if there is none on the
lines below the keys and none in a directory behind a link.
-/
theorem noEscapingInclude_iff
    {depth : Nat}
    (accepted : profile.rejectEscapingIncludes profileDir depth [] = .ok ()) :
    profile.NoEscapingInclude depth ↔ profile.MissesNoEscape depth := by
  constructor
  · intro none
    constructor
    · intro anchor rel place text reads target continued
      exact
        none anchor rel place text reads target
          (mem_mkosiTargets_iff.2 (Or.inr continued))
    · intro anchor rel place text reads _ target own
      exact
        none anchor rel place text reads target
          (mem_mkosiTargets_iff.2 (Or.inl own))
  · intro misses anchor rel place text reads target member
    rcases mem_mkosiTargets_iff.1 member with own | continued
    · by_cases unlinked : profile.IsUnlinked anchor
      · rcases reads.extrasDir with ⟨level, shallow, extras⟩
        have here :=
          accepted_of_isExtrasDir accepted extras (Nat.le_of_lt shallow) unlinked
        rw [show depth - level = depth - level - 1 + 1 by omega] at here
        have passed :=
          rejectEscapingIncludeLines_of_isConfigFile here reads.config
        have led :=
          walk_of_isUnlinked (isName_of_isExtrasDir extras) unlinked
            profile.links
        cases reads.cwd.symm.trans led
        exact
          not_leaves_of_targetEscapes
            (targetEscapes_eq_false passed reads.content own)
      · exact misses.linked anchor rel place text reads unlinked target own
    · exact misses.continued anchor rel place text reads target continued

end Profile

/-! ## Two profiles -/

/-- A profile with one configuration file. -/
def profileOf (text : String) : Profile where
  links := 40
  outer :=
    [(["profile"], .folder),
      (["profile", "mkosi.conf"], .file (utf8Bytes text))]
  root := ["profile"]

theorem readText_profileOf (text : String) :
    (profileOf text).readText ["mkosi.conf"] = some text := by
  have found :
      (profileOf text).stat ["mkosi.conf"] = some (.file (utf8Bytes text)) :=
    rfl
  rw [Profile.readText, found]
  exact utf8Text?_utf8Bytes text

/-- A value on the line of its key. -/
def ownText : String := "[Include]\nInclude=common.conf, mkosi-vm\n"

theorem noEscapingInclude_iff_ownText :
    (profileOf ownText).rejectEscapingIncludes "/profile" 8 [] = .ok () ∧
      ((profileOf ownText).NoEscapingInclude 8 ↔
        (profileOf ownText).MissesNoEscape 8) := by
  have accepted :
      (profileOf ownText).rejectEscapingIncludes "/profile" 8 [] = .ok () := by
    decide +kernel
  exact ⟨accepted, Profile.noEscapingInclude_iff accepted⟩

/-- A value on the line below its key. -/
def continuedText : String := "[Include]\nInclude=\n    ../../common.conf\n"

/-- The value is not looked at, and leads out of the profile. -/
theorem not_noEscapingInclude_continuedText :
    (profileOf continuedText).rejectEscapingIncludes "/profile" 8 [] =
        .ok () ∧
      mkosiTargets continuedText.toList = ["../../common.conf".toList] ∧
        ¬ ∀ (profile : Profile) (profileDir : String) (depth : Nat),
          profile.rejectEscapingIncludes profileDir depth [] = .ok () →
            profile.NoEscapingInclude depth := by
  have accepted :
      (profileOf continuedText).rejectEscapingIncludes "/profile" 8 [] =
        .ok () := by
    decide +kernel
  have targets :
      mkosiTargets continuedText.toList = ["../../common.conf".toList] := by
    decide +kernel
  refine ⟨accepted, targets, fun claimed => ?_⟩
  have reads :
      (profileOf continuedText).Reads 8 [] ["mkosi.conf"] ["profile"]
        continuedText :=
    { extrasDir := ⟨0, by decide, .top⟩
      config := .main "mkosi.conf" List.mem_cons_self rfl
      content := readText_profileOf continuedText
      cwd := rfl }
  refine
    claimed _ "/profile" 8 accepted [] ["mkosi.conf"] ["profile"] continuedText
      reads "../../common.conf".toList ?_ (Or.inr (Or.inr ?_))
  · rw [targets]
    exact List.mem_cons_self
  · decide +kernel

end Confos.Image.ProfileIncludes
