import Confos.Library.Text

/-!
# Options with property lists

A command line is a list of options, some with a value behind their name.  A
value may be a list of properties with commas between them, each a key or a key
and a value; a doubled comma stands for a comma in a property.
-/

namespace Confos.Library.CommandOptions

open Confos.Library.Text

/-! ## Properties -/

/-- A key, and what stands behind its `=`. -/
abbrev Property := String × Option String

def Property.text (property : Property) : String :=
  match property.2 with
  | none => property.1
  | some value => property.1 ++ "=" ++ value

def formatProperties (properties : List Property) : String :=
  ",".intercalate (properties.map Property.text)

@[simp]
theorem text_none (key : String) : Property.text (key, none) = key := rfl

@[simp]
theorem text_some (key value : String) :
    Property.text (key, some value) = key ++ "=" ++ value := rfl

@[simp]
theorem toList_formatProperties (properties : List Property) :
    (formatProperties properties).toList =
      [','].intercalate
        (properties.map fun property => property.text.toList) := by
  rw [formatProperties, String.toList_intercalate, List.map_map]
  rfl

/-- A character in front of the first piece. -/
def prolong (char : Char) : List (List Char) → List (List Char)
  | [] => [[char]]
  | piece :: pieces => (char :: piece) :: pieces

/-- The pieces between single commas. -/
def splitPieces : List Char → List (List Char)
  | [] => [[]]
  | char :: rest =>
      if char = ',' then
        match rest with
        | ',' :: rest => prolong ',' (splitPieces rest)
        | rest => [] :: splitPieces rest
      else
        prolong char (splitPieces rest)

def readPiece (piece : List Char) : Property :=
  match splitOnce '=' piece with
  | some (key, value) => (String.ofList key, some (String.ofList value))
  | none => (String.ofList piece, none)

def readProperties (value : String) : List Property :=
  (splitPieces value.toList).map readPiece

/-- A property that can be told from its text. -/
structure IsPlain (property : Property) : Prop where
  named : property.1 ≠ ""
  key : ',' ∉ property.1.toList ∧ '=' ∉ property.1.toList
  value : ∀ value, property.2 = some value → ',' ∉ value.toList

theorem comma_notMem_text {property : Property} (plain : IsPlain property) :
    ',' ∉ property.text.toList := by
  rw [Property.text]
  split
  · exact plain.key.1
  · next value found =>
      rw [String.toList_append, String.toList_append, List.mem_append,
        List.mem_append]
      rintro ((key | equals) | inside)
      · exact plain.key.1 key
      · exact absurd equals (by decide)
      · exact plain.value value found inside

theorem text_ne_nil {property : Property} (plain : IsPlain property) :
    property.text.toList ≠ [] := by
  have named : property.1.toList ≠ [] := fun empty =>
    plain.named (String.toList_eq_nil_iff.1 empty)
  rw [Property.text]
  split
  · exact named
  · rw [String.toList_append, String.toList_append, List.append_assoc]
    exact List.append_ne_nil_of_left_ne_nil named _

theorem splitOnce_eq_none_iff {separator : Char} {text : List Char} :
    splitOnce separator text = none ↔ separator ∉ text := by
  induction text with
  | nil => simp [splitOnce]
  | cons char text induction =>
      rw [splitOnce, List.mem_cons, not_or]
      by_cases same : char = separator
      · simp [same]
      · rw [if_neg same, Option.map_eq_none_iff, induction]
        simp [Ne.symm same]

theorem readPiece_text {property : Property} (plain : IsPlain property) :
    readPiece property.text.toList = property := by
  rcases property with ⟨key, value⟩
  cases value with
  | none =>
      have none := splitOnce_eq_none_iff.2 plain.key.2
      rw [Property.text, readPiece, none]
      dsimp only
      rw [String.ofList_toList]
  | some value =>
      have split :
          splitOnce '=' (key ++ "=" ++ value).toList =
            some (key.toList, value.toList) := by
        rw [String.toList_append, String.toList_append, List.append_assoc]
        exact splitOnce_append_cons plain.key.2 value.toList
      rw [Property.text, readPiece, split]
      dsimp only
      rw [String.ofList_toList, String.ofList_toList]

theorem splitPieces_cons_of_ne
    {char : Char} (other : char ≠ ',') (rest : List Char) :
    splitPieces (char :: rest) = prolong char (splitPieces rest) := by
  rw [splitPieces.eq_def]
  exact if_neg other

theorem splitPieces_comma_cons
    {rest : List Char} (single : rest.head? ≠ some ',') :
    splitPieces (',' :: rest) = [] :: splitPieces rest := by
  rw [splitPieces.eq_def]
  refine (if_pos rfl).trans ?_
  split
  · exact absurd rfl single
  · rfl

theorem splitPieces_of_notMem
    {piece : List Char} (without : ',' ∉ piece) : splitPieces piece = [piece] := by
  induction piece with
  | nil => rfl
  | cons char piece induction =>
      rw [List.mem_cons, not_or] at without
      rw [splitPieces_cons_of_ne (Ne.symm without.1), induction without.2]
      rfl

/-- A piece ends at its comma, unless a second one follows. -/
theorem splitPieces_append_cons
    {piece rest : List Char} (without : ',' ∉ piece)
    (single : rest.head? ≠ some ',') :
    splitPieces (piece ++ ',' :: rest) = piece :: splitPieces rest := by
  induction piece with
  | nil => exact splitPieces_comma_cons single
  | cons char piece induction =>
      rw [List.mem_cons, not_or] at without
      rw [List.cons_append, splitPieces_cons_of_ne (Ne.symm without.1),
        induction without.2]
      rfl

theorem head?_intercalate_ne
    {pieces : List (List Char)} (without : ∀ piece ∈ pieces, ',' ∉ piece)
    (solid : ∀ piece ∈ pieces, piece ≠ []) :
    ([','].intercalate pieces).head? ≠ some ',' := by
  cases pieces with
  | nil => simp
  | cons piece pieces =>
      rw [List.forall_mem_cons] at without solid
      cases piece with
      | nil => exact absurd rfl solid.1
      | cons char piece =>
          rw [List.intercalate_cons_cons_left, List.head?_cons]
          rintro ⟨rfl⟩
          exact without.1 List.mem_cons_self

theorem splitPieces_intercalate
    {pieces : List (List Char)} (nonempty : pieces ≠ [])
    (without : ∀ piece ∈ pieces, ',' ∉ piece)
    (solid : ∀ piece ∈ pieces, piece ≠ []) :
    splitPieces ([','].intercalate pieces) = pieces := by
  induction pieces with
  | nil => exact absurd rfl nonempty
  | cons piece pieces induction =>
      rw [List.forall_mem_cons] at without solid
      cases pieces with
      | nil =>
          rw [List.intercalate_singleton]
          exact splitPieces_of_notMem without.1
      | cons next pieces =>
          have single := head?_intercalate_ne without.2 solid.2
          rw [List.intercalate_cons_cons, List.append_assoc,
            List.singleton_append, splitPieces_append_cons without.1 single,
            induction (List.cons_ne_nil _ _) without.2 solid.2]

/-- Properties are read as they are written. -/
theorem readProperties_formatProperties
    {properties : List Property} (nonempty : properties ≠ [])
    (plain : ∀ property ∈ properties, IsPlain property) :
    readProperties (formatProperties properties) = properties := by
  have pieces :
      splitPieces (formatProperties properties).toList =
        properties.map fun property => property.text.toList := by
    rw [toList_formatProperties]
    refine splitPieces_intercalate (by simpa using nonempty) ?_ ?_
    · intro piece member
      rcases List.mem_map.1 member with ⟨property, inside, rfl⟩
      exact comma_notMem_text (plain property inside)
    · intro piece member
      rcases List.mem_map.1 member with ⟨property, inside, rfl⟩
      exact text_ne_nil (plain property inside)
  rw [readProperties, pieces, List.map_map]
  exact
    (List.map_congr_left fun property member =>
      readPiece_text (plain property member)).trans (List.map_id properties)

/-! ## Options -/

/-- The name of an option and its value. -/
abbrev CommandOption := String × Option String

/-- The options of a command line; a flag has no value. -/
def readOptions (flags : List String) : List String → List CommandOption
  | [] => []
  | [name] => [(name, none)]
  | name :: value :: rest =>
      if flags.contains name then
        (name, none) :: readOptions flags (value :: rest)
      else
        (name, some value) :: readOptions flags rest

theorem readOptions_flag
    {flags : List String} {name : String} (isFlag : flags.contains name = true)
    (rest : List String) :
    readOptions flags (name :: rest) = (name, none) :: readOptions flags rest := by
  cases rest with
  | nil => rfl
  | cons value rest => rw [readOptions, if_pos isFlag]

theorem readOptions_value
    {flags : List String} {name : String} (noFlag : flags.contains name = false)
    (value : String) (rest : List String) :
    readOptions flags (name :: value :: rest) =
      (name, some value) :: readOptions flags rest := by
  rw [readOptions, if_neg (Bool.eq_false_iff.1 noFlag)]

/-! ## Options with properties -/

/-- An option whose value is a list of properties, with values of any type. -/
abbrev PropertyOption (α : Type*) := String × List (String × Option α)

section Values

variable {α β γ : Type*}

def mapProperties (change : α → β) (properties : List (String × Option α)) :
    List (String × Option β) :=
  properties.map fun property => (property.1, property.2.map change)

@[simp]
theorem mapProperties_nil (change : α → β) : mapProperties change [] = [] := rfl

@[simp]
theorem mapProperties_cons
    (change : α → β) (property : String × Option α)
    (properties : List (String × Option α)) :
    mapProperties change (property :: properties) =
      (property.1, property.2.map change) :: mapProperties change properties :=
  rfl

def mapValues (change : α → β) (options : List (PropertyOption α)) :
    List (PropertyOption β) :=
  options.map fun option => (option.1, mapProperties change option.2)

/-- The values in a list of options. -/
def valuesIn (options : List (PropertyOption α)) : List α :=
  options.flatMap fun option => option.2.filterMap Prod.snd

/-- The values of one key, in the options of one name. -/
def valuesOf (name key : String) (options : List (PropertyOption α)) : List α :=
  options.filterMap fun option =>
    if option.1 = name then
      (option.2.lookup key).join
    else
      none

theorem valuesIn_append (first second : List (PropertyOption α)) :
    valuesIn (first ++ second) = valuesIn first ++ valuesIn second :=
  List.flatMap_append

theorem valuesOf_append
    (name key : String) (first second : List (PropertyOption α)) :
    valuesOf name key (first ++ second) =
      valuesOf name key first ++ valuesOf name key second :=
  List.filterMap_append

theorem valuesOf_flatMap
    {ι : Type*} (name key : String) (items : List ι)
    (options : ι → List (PropertyOption α)) :
    valuesOf name key (items.flatMap options) =
      items.flatMap fun item => valuesOf name key (options item) := by
  induction items with
  | nil => rfl
  | cons item items induction =>
      rw [List.flatMap_cons, valuesOf_append, induction, List.flatMap_cons]

theorem lookup_mapProperties
    (key : String) (change : α → β) (properties : List (String × Option α)) :
    (mapProperties change properties).lookup key =
      (properties.lookup key).map (Option.map change) := by
  induction properties with
  | nil => rfl
  | cons property properties induction =>
      rw [mapProperties_cons, List.lookup_cons, List.lookup_cons, induction]
      split <;> rfl

theorem valuesOf_mapValues
    (name key : String) (change : α → β) (options : List (PropertyOption α)) :
    valuesOf name key (mapValues change options) =
      (valuesOf name key options).map change := by
  rw [valuesOf, valuesOf, mapValues, List.filterMap_map, List.map_filterMap]
  apply List.filterMap_congr
  intro option _
  dsimp only [Function.comp_apply]
  split
  · rw [lookup_mapProperties]
    cases option.2.lookup key <;> rfl
  · rfl

theorem mapProperties_mapProperties
    (first : α → β) (second : β → γ) (properties : List (String × Option α)) :
    mapProperties second (mapProperties first properties) =
      mapProperties (second ∘ first) properties := by
  simp [mapProperties, Function.comp_def]

theorem mapValues_mapValues
    (first : α → β) (second : β → γ) (options : List (PropertyOption α)) :
    mapValues second (mapValues first options) =
      mapValues (second ∘ first) options := by
  simp [mapValues, mapProperties_mapProperties]

theorem mapProperties_eq_iff
    {first second : α → β} {properties : List (String × Option α)} :
    mapProperties first properties = mapProperties second properties ↔
      ∀ value ∈ properties.filterMap Prod.snd, first value = second value := by
  induction properties with
  | nil => simp [mapProperties]
  | cons property properties induction =>
      rcases property with ⟨key, value⟩
      cases value with
      | none => simpa [mapProperties] using induction
      | some value => simpa [mapProperties] using fun _ => induction

/-- Two readings of the options agree if they agree on each of the values. -/
theorem mapValues_eq_iff
    {first second : α → β} {options : List (PropertyOption α)} :
    mapValues first options = mapValues second options ↔
      ∀ value ∈ valuesIn options, first value = second value := by
  have each (option : PropertyOption α) :
      (option.1, mapProperties first option.2) =
          (option.1, mapProperties second option.2) ↔
        ∀ value ∈ option.2.filterMap Prod.snd, first value = second value := by
    rw [Prod.mk.injEq, and_iff_right rfl, mapProperties_eq_iff]
  rw [mapValues, mapValues, List.map_inj_left]
  simp only [each, valuesIn, List.mem_flatMap]
  constructor
  · rintro agree value ⟨option, member, inside⟩
    exact agree option member value inside
  · intro agree option member value inside
    exact agree value ⟨option, member, inside⟩

def isPlainKey (key : String) : Bool :=
  key ≠ "" && !key.toList.contains ',' && !key.toList.contains '='

@[simp]
theorem isPlainKey_iff {key : String} :
    isPlainKey key = true ↔
      key ≠ "" ∧ ',' ∉ key.toList ∧ '=' ∉ key.toList := by
  simp [isPlainKey, and_assoc]

/-- A value that spells out properties, with no comma in any of them. -/
structure Spells (write : α → String) (value : String)
    (properties : List (String × Option α)) : Prop where
  same :
    value.toList = (formatProperties (mapProperties write properties)).toList
  nonempty : properties ≠ []
  keys : (properties.all fun property => isPlainKey property.1) = true
  values : ∀ value ∈ properties.filterMap Prod.snd, ',' ∉ (write value).toList

theorem Spells.isPlain
    {write : α → String} {value : String}
    {properties : List (String × Option α)}
    (spells : Spells write value properties) :
    ∀ property ∈ mapProperties write properties, IsPlain property := by
  intro property member
  rcases List.mem_map.1 member with ⟨⟨key, value⟩, inside, rfl⟩
  have plain := List.all_eq_true.1 spells.keys _ inside
  rw [isPlainKey_iff] at plain
  refine ⟨plain.1, plain.2, ?_⟩
  intro written found
  rcases Option.map_eq_some_iff.1 found with ⟨value, rfl, rfl⟩
  exact spells.values value (List.mem_filterMap.2 ⟨_, inside, rfl⟩)

/-- The properties that are spelled out are the properties that are read. -/
theorem Spells.readProperties_eq
    {write : α → String} {value : String}
    {properties : List (String × Option α)}
    (spells : Spells write value properties) :
    readProperties value = mapProperties write properties := by
  rw [String.toList_inj.1 spells.same]
  apply readProperties_formatProperties
  · exact fun empty => spells.nonempty (List.map_eq_nil_iff.1 empty)
  · exact spells.isPlain

end Values

section Reading

variable (flags names : List String)

/-- The options of some names, with their properties. -/
def readPropertyOptions (args : List String) : List (PropertyOption String) :=
  (readOptions flags args).filterMap fun option =>
    if names.contains option.1 then
      option.2.map fun value => (option.1, readProperties value)
    else
      none

/-- The words of a command line that holds these options with properties. -/
inductive Writes : List String → List (PropertyOption String) → Prop
  | nil : Writes [] []
  | flag {name : String} {args : List String}
      {options : List (PropertyOption String)}
      (isFlag : flags.contains name = true)
      (unnamed : names.contains name = false) (rest : Writes args options) :
      Writes (name :: args) options
  | other {name : String} (value : String) {args : List String}
      {options : List (PropertyOption String)}
      (noFlag : flags.contains name = false)
      (unnamed : names.contains name = false) (rest : Writes args options) :
      Writes (name :: value :: args) options
  | properties {name value : String} {args : List String}
      {options : List (PropertyOption String)}
      (noFlag : flags.contains name = false)
      (named : names.contains name = true) (rest : Writes args options) :
      Writes (name :: value :: args) ((name, readProperties value) :: options)

variable {flags names}

theorem Writes.append
    {first second : List String}
    {options others : List (PropertyOption String)}
    (writes : Writes flags names first options)
    (writesMore : Writes flags names second others) :
    Writes flags names (first ++ second) (options ++ others) := by
  induction writes with
  | nil => exact writesMore
  | flag isFlag unnamed _ induction => exact .flag isFlag unnamed induction
  | other value noFlag unnamed _ induction =>
      exact .other value noFlag unnamed induction
  | properties noFlag named _ induction => exact .properties noFlag named induction

/-- Options are read as they are written. -/
theorem readPropertyOptions_of_writes
    {args : List String} {options : List (PropertyOption String)}
    (writes : Writes flags names args options) :
    readPropertyOptions flags names args = options := by
  induction writes with
  | nil => rfl
  | flag isFlag unnamed _ induction =>
      rw [readPropertyOptions, readOptions_flag isFlag, List.filterMap_cons_none]
      · exact induction
      · exact if_neg (Bool.eq_false_iff.1 unnamed)
  | other value noFlag unnamed _ induction =>
      rw [readPropertyOptions, readOptions_value noFlag, List.filterMap_cons_none]
      · exact induction
      · exact if_neg (Bool.eq_false_iff.1 unnamed)
  | properties noFlag named _ induction =>
      rw [readPropertyOptions, readOptions_value noFlag, List.filterMap_cons_some]
      · exact congrArg _ induction
      · exact if_pos named

end Reading

end Confos.Library.CommandOptions
