import Confos.Kernel.FragmentLines
import Confos.Library.Folds

/-!
# The verdict on the fragments

`checkFragmentOptions` accepts exactly the fragments whose lines are canonical
and whose requests the resolved `.config` meets.  The requests of a symbol are
read off the lines of all fragments put one behind the other: the last one
counts, and a forced-on marker counts wherever it stands.
-/

namespace Confos.Kernel.FragmentRequests

open Confos.Library.Fallible
open Confos.Library.Folds
open Confos.Library.Text
open Confos.Kernel.FragmentLines
open Confos.Kernel.FragmentOptions

/-! ## What is asked for -/

/-- The lines of all fragments in merge order. -/
def allLines (fragments : List Fragment) : List (List Char) :=
  fragments.flatMap fun fragment => lines fragment.body

def Assigns (symbol line : List Char) : Prop :=
  ∃ value, line = symbol ++ '=' :: value

def RequestsOn (symbol line : List Char) : Prop :=
  line = symbol ++ '=' :: ['y'] ∨ line = symbol ++ '=' :: ['m']

def RequestsOff (symbol line : List Char) : Prop :=
  line = symbol ++ '=' :: ['n'] ∨ line = unsetLine symbol

/-- The lines that the merge reads as being about a symbol. -/
def MergeVisible (symbol line : List Char) : Prop :=
  Assigns symbol line ∨ line = unsetLine symbol

def RequestsBoolean (symbol line : List Char) : Prop :=
  RequestsOn symbol line ∨ RequestsOff symbol line

/-- The last line of the resolved `.config` about a symbol. -/
def ResolvesTo (config symbol value : List Char) : Prop :=
  IsLast (Assigns symbol) (lines config) (symbol ++ '=' :: value)

/-- What the builder requires of fragments and the `.config` they led to. -/
structure Meets (fragments : List Fragment) (config : List Char) : Prop where
  canonical : ∀ line ∈ allLines fragments, Canonical line
  forced_unpinned :
    ∀ symbol, validSymbol symbol = true →
      forceLine symbol ∈ allLines fragments →
        ∀ line ∈ allLines fragments, ¬ RequestsOn symbol line
  forced_off :
    ∀ symbol, validSymbol symbol = true →
      forceLine symbol ∈ allLines fragments →
        ∃ line,
          IsLast (MergeVisible symbol) (allLines fragments) line ∧
            RequestsOff symbol line
  forced_resolved :
    ∀ symbol, validSymbol symbol = true →
      forceLine symbol ∈ allLines fragments → ResolvesTo config symbol ['y']
  on_resolved :
    ∀ symbol, validSymbol symbol = true →
      forceLine symbol ∉ allLines fragments →
        ∀ line, IsLast (RequestsBoolean symbol) (allLines fragments) line →
          RequestsOn symbol line → ResolvesTo config symbol ['y']
  off_resolved :
    ∀ symbol, validSymbol symbol = true →
      forceLine symbol ∉ allLines fragments →
        ∀ line, IsLast (RequestsBoolean symbol) (allLines fragments) line →
          RequestsOff symbol line →
            ∀ resolved ∈ lines config, ¬ Assigns symbol resolved

/-! ## The resolved values -/

theorem assignment_iff
    {symbol value line : List Char} (valid : validSymbol symbol = true) :
    (configStart.isPrefixOf line = true ∧
        splitOnce '=' line = some (symbol, value)) ↔
      line = symbol ++ '=' :: value := by
  constructor
  · rintro ⟨-, split⟩
    exact eq_of_splitOnce split
  · rintro rfl
    refine ⟨?_, splitOnce_assignment valid value⟩
    rw [List.isPrefixOf_iff_prefix]
    exact (startsWith_configStart valid).trans (List.prefix_append _ _)

/-- The value that a line of the `.config` gives a symbol. -/
def valueIn (symbol line : List Char) : Option (List Char) :=
  if configStart.isPrefixOf line then
    (splitOnce '=' line).bind fun assignment =>
      if assignment.1 = symbol then some assignment.2 else none
  else
    none

theorem valueIn_eq_some_iff
    {symbol value line : List Char} (valid : validSymbol symbol = true) :
    valueIn symbol line = some value ↔ line = symbol ++ '=' :: value := by
  rw [← assignment_iff valid, valueIn]
  constructor
  · intro found
    split at found
    · rename_i starts
      rcases Option.bind_eq_some_iff.1 found with
        ⟨⟨other, given⟩, split, same⟩
      rcases Option.ite_none_right_eq_some.1 same with ⟨rfl, given_eq⟩
      cases given_eq
      exact ⟨starts, split⟩
    · cases found
  · rintro ⟨starts, split⟩
    rw [if_pos starts, split]
    exact if_pos rfl

theorem isSome_valueIn_iff
    {symbol line : List Char} (valid : validSymbol symbol = true) :
    (valueIn symbol line).isSome = true ↔ Assigns symbol line := by
  rw [Option.isSome_iff_exists]
  exact exists_congr fun value => valueIn_eq_some_iff valid

theorem getElem?_insert_symbol
    {Value : Type} (map : SymbolMap Value) (key symbol : List Char)
    (value : Value) :
    (map.insert key value)[symbol]? =
      if key = symbol then some value else map[symbol]? := by
  rw [Std.TreeMap.getElem?_insert]
  simp only [Std.compare_eq_iff_eq]

/-- What an assignment says about one symbol. -/
def assignedTo (symbol : List Char) (assignment : List Char × List Char) :
    Option (List Char) :=
  if assignment.1 = symbol then some assignment.2 else none

theorem getElem?_values (config symbol : List Char) :
    (values config)[symbol]? =
      lastSome (valueIn symbol) (lines config) := by
  have folded :=
    @foldl_lastSome _ _ _ (assignedTo symbol)
      (((lines config).filter configStart.isPrefixOf).filterMap
        (splitOnce '='))
      (fun (values : SymbolMap (List Char)) assignment =>
        values.insert assignment.1 assignment.2)
      (fun values => values[symbol]?)
      (by
        intro values assignment
        rw [getElem?_insert_symbol, assignedTo]
        split <;> rfl)
      ∅
  rw [values]
  refine folded.trans ?_
  rw [Std.TreeMap.getElem?_emptyc, Option.or_none, List.filterMap_filter,
    lastSome_filterMap]
  apply lastSome_congr
  intro line _
  rw [valueIn]
  split <;> rfl

theorem getElem?_values_eq_some_iff
    {config symbol value : List Char} (valid : validSymbol symbol = true) :
    (values config)[symbol]? = some value ↔ ResolvesTo config symbol value := by
  rw [getElem?_values, lastSome_eq_some_iff_isLast]
  have relevant {line : List Char} :
      IsLast (fun line => (valueIn symbol line).isSome = true) (lines config)
          line ↔
        IsLast (Assigns symbol) (lines config) line :=
    isLast_congr fun line _ => isSome_valueIn_iff valid
  constructor
  · rintro ⟨line, last, found⟩
    rw [(valueIn_eq_some_iff valid).1 found] at last
    exact relevant.1 last
  · intro last
    exact ⟨_, relevant.2 last, (valueIn_eq_some_iff valid).2 rfl⟩

theorem getElem?_values_eq_none_iff
    {config symbol : List Char} (valid : validSymbol symbol = true) :
    (values config)[symbol]? = none ↔
      ∀ line ∈ lines config, ¬ Assigns symbol line := by
  rw [getElem?_values, ← Option.not_isSome_iff_eq_none, isSome_lastSome_iff]
  push Not
  exact
    forall₂_congr fun line _ => (isSome_valueIn_iff valid).not

/-! ## The maps after the pass -/

inductive RequestKind where
  | on
  | off
  | forced
deriving DecidableEq, Repr

def kindOf : Request → RequestKind
  | .on _ => .on
  | .off _ => .off
  | .forced _ => .forced

/-- What an entry tells the merge about a symbol. -/
def submittedBy (symbol : List Char) : Entry → Option SubmittedRequest
  | .assign assigned value =>
      if assigned = symbol then
        if value = ['y'] ∨ value = ['m'] then some .on
        else if value = ['n'] then some .off
        else some .scalar
      else
        none
  | .unset unset => if unset = symbol then some .off else none
  | .force _ => none

/-- What an entry requests of a symbol. -/
def requestedBy (symbol : List Char) : Entry → Option RequestKind
  | .assign assigned value =>
      if assigned = symbol then
        if value = ['y'] ∨ value = ['m'] then some .on
        else if value = ['n'] then some .off
        else none
      else
        none
  | .unset unset => if unset = symbol then some .off else none
  | .force _ => none

def pinnedBy (symbol : List Char) (entry : Entry) : Option Unit :=
  if requestedBy symbol entry = some .on then some () else none

def forcedBy (symbol : List Char) : Entry → Option Unit
  | .force forced => if forced = symbol then some () else none
  | _ => none

theorem submitted_record
    (requests : Requests) (name : String) (entry : Entry)
    (symbol : List Char) :
    (requests.record name entry).submitted[symbol]? =
      (submittedBy symbol entry).or requests.submitted[symbol]? := by
  cases entry with
  | assign assigned value =>
      rw [Requests.record, submittedBy]
      split_ifs <;> simp_all [getElem?_insert_symbol]
  | unset unset =>
      rw [Requests.record, submittedBy]
      split_ifs <;> simp_all [getElem?_insert_symbol]
  | force forced => rfl

theorem requested_record
    (requests : Requests) (name : String) (entry : Entry)
    (symbol : List Char) :
    ((requests.record name entry).requested[symbol]?).map kindOf =
      (requestedBy symbol entry).or
        (requests.requested[symbol]?.map kindOf) := by
  cases entry with
  | assign assigned value =>
      rw [Requests.record, requestedBy]
      split_ifs <;> simp_all [getElem?_insert_symbol, kindOf]
  | unset unset =>
      rw [Requests.record, requestedBy]
      split_ifs <;> simp_all [getElem?_insert_symbol, kindOf]
  | force forced => rfl

theorem isSome_insertIfNew
    {Value : Type} (map : SymbolMap Value) (key symbol : List Char)
    (value : Value) :
    (map.insertIfNew key value)[symbol]?.map (fun _ => ()) =
      (if key = symbol then some () else none).or
        (map[symbol]?.map fun _ => ()) := by
  rw [Std.TreeMap.getElem?_insertIfNew]
  simp only [Std.compare_eq_iff_eq]
  by_cases same : key = symbol
  · subst same
    by_cases member : key ∈ map
    · simp [member]
    · simp [member]
  · simp [same]

theorem onPins_record
    (requests : Requests) (name : String) (entry : Entry)
    (symbol : List Char) :
    ((requests.record name entry).onPins[symbol]?).map (fun _ => ()) =
      (pinnedBy symbol entry).or
        (requests.onPins[symbol]?.map fun _ => ()) := by
  cases entry with
  | assign assigned value =>
      rw [Requests.record, pinnedBy, requestedBy]
      split_ifs <;> simp_all [isSome_insertIfNew]
  | unset unset =>
      rw [Requests.record, pinnedBy, requestedBy]
      split_ifs <;> simp_all
  | force forced => rfl

theorem forced_record
    (requests : Requests) (name : String) (entry : Entry)
    (symbol : List Char) :
    ((requests.record name entry).forced[symbol]?).map (fun _ => ()) =
      (forcedBy symbol entry).or
        (requests.forced[symbol]?.map fun _ => ()) := by
  cases entry with
  | assign assigned value =>
      rw [Requests.record]
      split_ifs <;> rfl
  | unset unset => rfl
  | force forced =>
      rw [Requests.record, forcedBy]
      exact isSome_insertIfNew _ _ _ _

/-! ## The pass over all lines -/

/-- The lines with the names of their fragments. -/
def taggedLines (fragments : List Fragment) : List (String × List Char) :=
  fragments.flatMap fun fragment =>
    (lines fragment.body).map fun line => (fragment.name, line)

theorem allLines_eq_map (fragments : List Fragment) :
    allLines fragments = (taggedLines fragments).map (·.2) := by
  simp [allLines, taggedLines, List.map_flatMap, Function.comp_def]

section

variable {debug : List Char → String} {fragments : List Fragment}

variable (debug) in
/-- What a tagged line is read as, if it is let through. -/
def entryOf (tagged : String × List Char) : Option Entry :=
  match classifyLine debug tagged.1 tagged.2 with
  | .ok read => read
  | .error _ => none

theorem readFragments_eq_foldlM :
    readFragments debug fragments =
      (taggedLines fragments).foldlM
        (fun requests tagged =>
          (classifyLine debug tagged.1 tagged.2).map
            (requests.recordLine tagged.1))
        Requests.empty := by
  rw [readFragments]
  generalize Requests.empty = start
  induction fragments generalizing start with
  | nil => rfl
  | cons fragment fragments induction =>
      rw [List.foldlM_cons, taggedLines, List.flatMap_cons,
        List.foldlM_append, List.foldlM_map]
      exact bind_congr fun requests => induction requests

theorem readFragments_eq_ok_iff {requests : Requests} :
    readFragments debug fragments = .ok requests ↔
      (∀ line ∈ allLines fragments, Canonical line) ∧
        requests =
          (taggedLines fragments).foldl
            (fun requests tagged =>
              requests.recordLine tagged.1 (entryOf debug tagged))
            Requests.empty := by
  rw [readFragments_eq_foldlM, foldlM_map_eq_ok, allLines_eq_map,
    List.forall_mem_map]
  refine and_congr (forall₂_congr fun _ _ => exists_classifyLine_iff) ?_
  apply Eq.congr_right
  congr 1
  funext requests tagged
  rw [entryOf]
  cases classifyLine debug tagged.1 tagged.2 with
  | error message => rfl
  | ok read => rfl

theorem entryOf_eq_some_iff
    {tagged : String × List Char} {entry : Entry}
    (canonical : Canonical tagged.2)
    (valid : validSymbol entry.symbol = true) :
    entryOf debug tagged = some entry ↔ tagged.2 = entry.line := by
  rcases (@exists_classifyLine_iff debug tagged.1 tagged.2).2 canonical with
    ⟨read, classified⟩
  rw [entryOf, classified]
  constructor
  · rintro rfl
    exact (line_of_classifyLine classified).1
  · intro spelled
    exact classifyLine_of_line classified valid spelled

/-- What the maps keep about a symbol, by the lines that decide it. -/
theorem view_of_readFragments
    {Value : Type} {view : Requests → Option Value}
    {value : Entry → Option Value}
    (initial : view Requests.empty = none)
    (overrides :
      ∀ requests name entry,
        view (requests.record name entry) = (value entry).or (view requests))
    {requests : Requests}
    (read : readFragments debug fragments = .ok requests) :
    view requests =
      lastSome (fun tagged => (entryOf debug tagged).bind value)
        (taggedLines fragments) := by
  rw [(readFragments_eq_ok_iff.1 read).2]
  have folded :=
    @foldl_lastSome _ _ _ (fun tagged => (entryOf debug tagged).bind value)
      (taggedLines fragments)
      (fun requests tagged =>
        requests.recordLine tagged.1 (entryOf debug tagged))
      view
      (by
        intro requests tagged
        cases entryOf debug tagged with
        | none => rfl
        | some entry => exact overrides requests tagged.1 entry)
      Requests.empty
  rw [folded, initial, Option.or_none]

theorem lastSome_taggedLines_iff
    {Value : Type} {value : Entry → Option Value} {found : Value}
    {Relevant Found : List Char → Prop}
    (relevant :
      ∀ tagged ∈ taggedLines fragments,
        ((entryOf debug tagged).bind value).isSome = true ↔
          Relevant tagged.2)
    (isFound :
      ∀ tagged ∈ taggedLines fragments,
        (entryOf debug tagged).bind value = some found ↔ Found tagged.2) :
    lastSome (fun tagged => (entryOf debug tagged).bind value)
          (taggedLines fragments) = some found ↔
      ∃ line, IsLast Relevant (allLines fragments) line ∧ Found line := by
  rw [lastSome_eq_some_iff_isLast, allLines_eq_map]
  constructor
  · rintro ⟨tagged, last, given⟩
    have member : tagged ∈ taggedLines fragments := by
      rcases last with ⟨before, after, split, -, -⟩
      rw [split]
      simp
    exact
      ⟨tagged.2,
        (isLast_map_iff _).2
          ⟨tagged, (isLast_congr relevant).1 last, rfl⟩,
        (isFound tagged member).1 given⟩
  · rintro ⟨line, last, given⟩
    rcases (isLast_map_iff _).1 last with ⟨tagged, lastTagged, rfl⟩
    have member : tagged ∈ taggedLines fragments := by
      rcases lastTagged with ⟨before, after, split, -, -⟩
      rw [split]
      simp
    exact
      ⟨tagged, (isLast_congr relevant).2 lastTagged,
        (isFound tagged member).2 given⟩

/-! ## Entries and the lines that spell them -/

theorem requestedBy_eq_on_iff {symbol : List Char} {entry : Entry} :
    requestedBy symbol entry = some .on ↔
      entry = .assign symbol ['y'] ∨ entry = .assign symbol ['m'] := by
  cases entry with
  | assign assigned value =>
      rw [requestedBy]
      split_ifs <;> simp_all
  | unset unset => simp [requestedBy]
  | force forced => simp [requestedBy]

theorem requestedBy_eq_off_iff {symbol : List Char} {entry : Entry} :
    requestedBy symbol entry = some .off ↔
      entry = .assign symbol ['n'] ∨ entry = .unset symbol := by
  cases entry with
  | assign assigned value =>
      rw [requestedBy]
      split_ifs with same on off
      · have other : value ≠ ['n'] := by
          rintro rfl
          simp at on
        simp [other]
      · simp [same, off]
      · simp [off]
      · simp [same]
  | unset unset => simp [requestedBy]
  | force forced => simp [requestedBy]

theorem requestedBy_ne_forced {symbol : List Char} {entry : Entry} :
    requestedBy symbol entry ≠ some .forced := by
  cases entry with
  | assign assigned value =>
      rw [requestedBy]
      split_ifs <;> simp
  | unset unset => simp [requestedBy]
  | force forced => simp [requestedBy]

theorem submittedBy_eq_off_iff {symbol : List Char} {entry : Entry} :
    submittedBy symbol entry = some .off ↔
      entry = .assign symbol ['n'] ∨ entry = .unset symbol := by
  cases entry with
  | assign assigned value =>
      rw [submittedBy]
      split_ifs with same on off
      · have other : value ≠ ['n'] := by
          rintro rfl
          simp at on
        simp [other]
      · simp [same, off]
      · simp [off]
      · simp [same]
  | unset unset => simp [submittedBy]
  | force forced => simp [submittedBy]

theorem isSome_submittedBy_iff {symbol : List Char} {entry : Entry} :
    (submittedBy symbol entry).isSome = true ↔
      (∃ value, entry = .assign symbol value) ∨ entry = .unset symbol := by
  cases entry with
  | assign assigned value =>
      rw [submittedBy]
      split_ifs <;> simp_all
  | unset unset => simp [submittedBy]
  | force forced => simp [submittedBy]

theorem forcedBy_eq_some_iff {symbol : List Char} {entry : Entry} :
    forcedBy symbol entry = some () ↔ entry = .force symbol := by
  cases entry with
  | assign assigned value => simp [forcedBy]
  | unset unset => simp [forcedBy]
  | force forced => simp [forcedBy]

section

variable {tagged : String × List Char} {symbol : List Char}

/-- A line is read as one of two entries if it spells one of them. -/
theorem bind_eq_some_iff_spells
    {Value : Type} {value : Entry → Option Value} {found : Value}
    {first second : Entry} (canonical : Canonical tagged.2)
    (firstValid : validSymbol first.symbol = true)
    (secondValid : validSymbol second.symbol = true)
    (decided :
      ∀ entry, value entry = some found ↔ entry = first ∨ entry = second) :
    (entryOf debug tagged).bind value = some found ↔
      tagged.2 = first.line ∨ tagged.2 = second.line := by
  rw [Option.bind_eq_some_iff, ← @entryOf_eq_some_iff debug _ _ canonical firstValid,
    ← @entryOf_eq_some_iff debug _ _ canonical secondValid]
  constructor
  · rintro ⟨entry, read, given⟩
    rcases (decided entry).1 given with rfl | rfl
    · exact Or.inl read
    · exact Or.inr read
  · rintro (read | read)
    · exact ⟨first, read, (decided first).2 (Or.inl rfl)⟩
    · exact ⟨second, read, (decided second).2 (Or.inr rfl)⟩

theorem bind_requestedBy_on_iff
    (canonical : Canonical tagged.2) (valid : validSymbol symbol = true) :
    (entryOf debug tagged).bind (requestedBy symbol) = some .on ↔
      RequestsOn symbol tagged.2 :=
  @bind_eq_some_iff_spells debug tagged _ _ _ (.assign symbol ['y'])
    (.assign symbol ['m']) canonical valid valid
    fun _ => requestedBy_eq_on_iff

theorem bind_requestedBy_off_iff
    (canonical : Canonical tagged.2) (valid : validSymbol symbol = true) :
    (entryOf debug tagged).bind (requestedBy symbol) = some .off ↔
      RequestsOff symbol tagged.2 :=
  @bind_eq_some_iff_spells debug tagged _ _ _ (.assign symbol ['n'])
    (.unset symbol) canonical valid valid fun _ => requestedBy_eq_off_iff

theorem bind_submittedBy_off_iff
    (canonical : Canonical tagged.2) (valid : validSymbol symbol = true) :
    (entryOf debug tagged).bind (submittedBy symbol) = some .off ↔
      RequestsOff symbol tagged.2 :=
  @bind_eq_some_iff_spells debug tagged _ _ _ (.assign symbol ['n'])
    (.unset symbol) canonical valid valid fun _ => submittedBy_eq_off_iff

theorem isSome_bind_requestedBy_iff
    (canonical : Canonical tagged.2) (valid : validSymbol symbol = true) :
    ((entryOf debug tagged).bind (requestedBy symbol)).isSome = true ↔
      RequestsBoolean symbol tagged.2 := by
  rw [RequestsBoolean, ← @bind_requestedBy_on_iff debug _ _ canonical valid,
    ← @bind_requestedBy_off_iff debug _ _ canonical valid]
  constructor
  · intro given
    rcases Option.isSome_iff_exists.1 given with ⟨kind, found⟩
    cases kind with
    | on => exact Or.inl found
    | off => exact Or.inr found
    | forced =>
        rcases Option.bind_eq_some_iff.1 found with ⟨entry, -, impossible⟩
        exact absurd impossible requestedBy_ne_forced
  · rintro (found | found)
    · rw [found]
      rfl
    · rw [found]
      rfl

theorem isSome_bind_submittedBy_iff
    (canonical : Canonical tagged.2) (valid : validSymbol symbol = true) :
    ((entryOf debug tagged).bind (submittedBy symbol)).isSome = true ↔
      MergeVisible symbol tagged.2 := by
  have spelled (entry : Entry) (same : entry.symbol = symbol) :
      entryOf debug tagged = some entry ↔ tagged.2 = entry.line :=
    entryOf_eq_some_iff canonical (same ▸ valid)
  constructor
  · intro given
    cases read : entryOf debug tagged with
    | none =>
        rw [read] at given
        cases given
    | some entry =>
        rw [read] at given
        rcases isSome_submittedBy_iff.1 given with ⟨value, rfl⟩ | rfl
        · exact Or.inl ⟨value, (spelled (.assign symbol value) rfl).1 read⟩
        · exact Or.inr ((spelled (.unset symbol) rfl).1 read)
  · rintro (⟨value, line⟩ | line)
    · rw [(spelled (.assign symbol value) rfl).2 line]
      exact isSome_submittedBy_iff.2 (Or.inl ⟨value, rfl⟩)
    · rw [(spelled (.unset symbol) rfl).2 line]
      exact isSome_submittedBy_iff.2 (Or.inr rfl)

end

/-! ## What the maps hold after the pass -/

section

variable {requests : Requests} {symbol : List Char}

theorem canonical_of_mem_taggedLines
    (read : readFragments debug fragments = .ok requests)
    {tagged : String × List Char}
    (member : tagged ∈ taggedLines fragments) :
    Canonical tagged.2 := by
  apply (readFragments_eq_ok_iff.1 read).1
  rw [allLines_eq_map]
  exact List.mem_map_of_mem member

theorem submitted_off_iff
    (read : readFragments debug fragments = .ok requests)
    (valid : validSymbol symbol = true) :
    requests.submitted[symbol]? = some .off ↔
      ∃ line,
        IsLast (MergeVisible symbol) (allLines fragments) line ∧
          RequestsOff symbol line := by
  have viewed :
      requests.submitted[symbol]? =
        lastSome (fun tagged => (entryOf debug tagged).bind
          (submittedBy symbol)) (taggedLines fragments) :=
    @view_of_readFragments debug fragments _
      (fun requests => requests.submitted[symbol]?) _ rfl
      (fun requests name entry => submitted_record requests name entry symbol)
      _ read
  rw [viewed]
  exact
    lastSome_taggedLines_iff
      (fun tagged member =>
        isSome_bind_submittedBy_iff (canonical_of_mem_taggedLines read member)
          valid)
      (fun tagged member =>
        bind_submittedBy_off_iff (canonical_of_mem_taggedLines read member)
          valid)

theorem requested_kind_eq
    (read : readFragments debug fragments = .ok requests)
    (symbol : List Char) :
    requests.requested[symbol]?.map kindOf =
      lastSome (fun tagged => (entryOf debug tagged).bind
        (requestedBy symbol)) (taggedLines fragments) :=
  @view_of_readFragments debug fragments _
    (fun requests => requests.requested[symbol]?.map kindOf) _ rfl
    (fun requests name entry => requested_record requests name entry symbol)
    _ read

theorem requested_on_iff
    (read : readFragments debug fragments = .ok requests)
    (valid : validSymbol symbol = true) :
    requests.requested[symbol]?.map kindOf = some .on ↔
      ∃ line,
        IsLast (RequestsBoolean symbol) (allLines fragments) line ∧
          RequestsOn symbol line := by
  rw [requested_kind_eq read]
  exact
    lastSome_taggedLines_iff
      (fun tagged member =>
        isSome_bind_requestedBy_iff (canonical_of_mem_taggedLines read member)
          valid)
      (fun tagged member =>
        bind_requestedBy_on_iff (canonical_of_mem_taggedLines read member)
          valid)

theorem requested_off_iff
    (read : readFragments debug fragments = .ok requests)
    (valid : validSymbol symbol = true) :
    requests.requested[symbol]?.map kindOf = some .off ↔
      ∃ line,
        IsLast (RequestsBoolean symbol) (allLines fragments) line ∧
          RequestsOff symbol line := by
  rw [requested_kind_eq read]
  exact
    lastSome_taggedLines_iff
      (fun tagged member =>
        isSome_bind_requestedBy_iff (canonical_of_mem_taggedLines read member)
          valid)
      (fun tagged member =>
        bind_requestedBy_off_iff (canonical_of_mem_taggedLines read member)
          valid)

/-- Before the markers are put in, no request is a forced one. -/
theorem requested_ne_forced
    (read : readFragments debug fragments = .ok requests)
    (symbol : List Char) :
    requests.requested[symbol]?.map kindOf ≠ some .forced := by
  rw [requested_kind_eq read]
  intro found
  rcases lastSome_eq_some_iff.1 found with ⟨-, tagged, -, -, given, -⟩
  rcases Option.bind_eq_some_iff.1 given with ⟨entry, -, impossible⟩
  exact requestedBy_ne_forced impossible

theorem onPins_eq_none_iff
    (read : readFragments debug fragments = .ok requests)
    (valid : validSymbol symbol = true) :
    requests.onPins[symbol]? = none ↔
      ∀ line ∈ allLines fragments, ¬ RequestsOn symbol line := by
  have viewed :
      requests.onPins[symbol]?.map (fun _ => ()) =
        lastSome (fun tagged => (entryOf debug tagged).bind
          (pinnedBy symbol)) (taggedLines fragments) :=
    @view_of_readFragments debug fragments _
      (fun requests => requests.onPins[symbol]?.map fun _ => ()) _ rfl
      (fun requests name entry => onPins_record requests name entry symbol)
      _ read
  have pinned (tagged : String × List Char)
      (member : tagged ∈ taggedLines fragments) :
      ((entryOf debug tagged).bind (pinnedBy symbol)).isSome = true ↔
        RequestsOn symbol tagged.2 := by
    rw [← @bind_requestedBy_on_iff debug _ _
      (canonical_of_mem_taggedLines read member) valid]
    cases entryOf debug tagged with
    | none => simp
    | some entry =>
        change (pinnedBy symbol entry).isSome = true ↔ _
        rw [pinnedBy]
        split
        · rename_i isOn
          simp [isOn]
        · rename_i notOn
          simpa using notOn
  rw [← Option.map_eq_none_iff, viewed, ← Option.not_isSome_iff_eq_none,
    isSome_lastSome_iff, allLines_eq_map, List.forall_mem_map]
  push Not
  exact forall₂_congr fun tagged member => (pinned tagged member).not

theorem forced_eq
    (read : readFragments debug fragments = .ok requests)
    (symbol : List Char) :
    requests.forced[symbol]?.map (fun _ => ()) =
      lastSome (fun tagged => (entryOf debug tagged).bind
        (forcedBy symbol)) (taggedLines fragments) :=
  @view_of_readFragments debug fragments _
    (fun requests => requests.forced[symbol]?.map fun _ => ()) _ rfl
    (fun requests name entry => forced_record requests name entry symbol)
    _ read

theorem isSome_forced_iff
    (read : readFragments debug fragments = .ok requests)
    (valid : validSymbol symbol = true) :
    (requests.forced[symbol]?).isSome = true ↔
      forceLine symbol ∈ allLines fragments := by
  have marked (tagged : String × List Char)
      (member : tagged ∈ taggedLines fragments) :
      ((entryOf debug tagged).bind (forcedBy symbol)).isSome = true ↔
        tagged.2 = forceLine symbol := by
    have spelled :
        entryOf debug tagged = some (.force symbol) ↔
          tagged.2 = forceLine symbol :=
      entryOf_eq_some_iff (canonical_of_mem_taggedLines read member) valid
    rw [← spelled]
    cases entryOf debug tagged with
    | none => simp
    | some entry =>
        rw [Option.bind_some, Option.some_inj, ← forcedBy_eq_some_iff]
        cases forcedBy symbol entry with
        | none => simp
        | some marked => simp
  have sameSome :
      (requests.forced[symbol]?).isSome =
        (requests.forced[symbol]?.map fun _ => ()).isSome :=
    Option.isSome_map.symm
  rw [sameSome, forced_eq read, isSome_lastSome_iff, allLines_eq_map,
    List.mem_map]
  exact
    exists_congr fun tagged => and_congr_right fun member =>
      marked tagged member

/-- What a line says is about a valid symbol. -/
theorem validSymbol_of_lastSome
    {Value : Type} {value : Entry → Option Value}
    (about :
      ∀ entry, (value entry).isSome = true → entry.symbol = symbol)
    (found :
      (lastSome (fun tagged => (entryOf debug tagged).bind value)
        (taggedLines fragments)).isSome = true) :
    validSymbol symbol = true := by
  rcases isSome_lastSome_iff.1 found with ⟨tagged, -, given⟩
  rw [entryOf] at given
  split at given
  · rename_i read classified
    cases read with
    | none => cases given
    | some entry =>
        rw [← about entry given]
        exact (line_of_classifyLine classified).2
  · cases given

theorem validSymbol_of_forced
    (read : readFragments debug fragments = .ok requests)
    (found : (requests.forced[symbol]?).isSome = true) :
    validSymbol symbol = true := by
  apply
    @validSymbol_of_lastSome debug fragments symbol _ (forcedBy symbol)
  · intro entry given
    rcases Option.isSome_iff_exists.1 given with ⟨⟨⟩, forced⟩
    rw [forcedBy_eq_some_iff.1 forced]
    rfl
  · rw [← forced_eq read]
    simpa using found

theorem validSymbol_of_requested
    (read : readFragments debug fragments = .ok requests)
    (found : (requests.requested[symbol]?).isSome = true) :
    validSymbol symbol = true := by
  apply
    @validSymbol_of_lastSome debug fragments symbol _ (requestedBy symbol)
  · intro entry given
    rcases Option.isSome_iff_exists.1 given with ⟨kind, requested⟩
    cases kind with
    | on =>
        rcases requestedBy_eq_on_iff.1 requested with rfl | rfl
        · rfl
        · rfl
    | off =>
        rcases requestedBy_eq_off_iff.1 requested with rfl | rfl
        · rfl
        · rfl
    | forced => exact absurd requested requestedBy_ne_forced
  · rw [← requested_kind_eq read]
    simpa using found

end

end

/-! ## The checks -/

/-- The forced request that a marker puts in. -/
def forcedFor (symbol : List Char) (marker : List Char × String) :
    Option Request :=
  if marker.1 = symbol then some (.forced marker.2) else none

theorem lastSome_forcedFor (requests : Requests) (symbol : List Char) :
    lastSome (forcedFor symbol) requests.forced.toList =
      requests.forced[symbol]?.map Request.forced := by
  cases found : requests.forced[symbol]? with
  | none =>
      apply Option.not_isSome_iff_eq_none.1
      rw [isSome_lastSome_iff]
      rintro ⟨⟨key, name⟩, member, given⟩
      rw [forcedFor] at given
      split at given
      · rename_i same
        have held := Std.TreeMap.mem_toList_iff_getElem?_eq_some.1 member
        have same : key = symbol := same
        rw [same, found] at held
        cases held
      · cases given
  | some name =>
      have member :=
        Std.TreeMap.mem_toList_iff_getElem?_eq_some.2 found
      have given :
          (lastSome (forcedFor symbol) requests.forced.toList).isSome =
            true := by
        rw [isSome_lastSome_iff]
        exact ⟨_, member, by simp [forcedFor]⟩
      rcases Option.isSome_iff_exists.1 given with ⟨request, last⟩
      rw [last]
      rcases lastSome_eq_some_iff.1 last with
        ⟨before, ⟨key, other⟩, after, split, isForced, -⟩
      rcases Option.ite_none_right_eq_some.1 isForced with
        ⟨same, request_eq⟩
      cases request_eq
      have held : requests.forced[key]? = some other := by
        apply Std.TreeMap.mem_toList_iff_getElem?_eq_some.1
        rw [split]
        simp
      have same : key = symbol := same
      rw [same, found] at held
      cases held
      rfl

theorem getElem?_finalRequests (requests : Requests) (symbol : List Char) :
    (finalRequests requests)[symbol]? =
      (requests.forced[symbol]?.map Request.forced).or
        requests.requested[symbol]? := by
  rw [← lastSome_forcedFor, finalRequests]
  exact
    @foldl_lastSome _ _ _ (forcedFor symbol) requests.forced.toList
      (fun (requested : SymbolMap Request) marker =>
        requested.insert marker.1 (.forced marker.2))
      (fun requested => requested[symbol]?)
      (by
        intro requested marker
        rw [getElem?_insert_symbol, forcedFor]
        split <;> rfl)
      requests.requested

theorem filterMap_toList_eq_nil_iff
    {Value : Type} {map : SymbolMap Value}
    {check : List Char × Value → Option String} :
    map.toList.filterMap check = [] ↔
      ∀ symbol value, map[symbol]? = some value →
        check (symbol, value) = none := by
  rw [List.filterMap_eq_nil_iff]
  constructor
  · intro none_found symbol value held
    exact none_found _ (Std.TreeMap.mem_toList_iff_getElem?_eq_some.2 held)
  · rintro none_found ⟨symbol, value⟩ member
    exact
      none_found symbol value
        (Std.TreeMap.mem_toList_iff_getElem?_eq_some.1 member)

theorem mismatch_eq_none_iff
    {resolved : SymbolMap (List Char)} {symbol : List Char}
    {request : Request} :
    mismatch resolved (symbol, request) = none ↔
      (kindOf request = .off → resolved[symbol]? = none) ∧
        (kindOf request ≠ .off → resolved[symbol]? = some ['y']) := by
  rw [mismatch]
  cases request with
  | on name =>
      cases resolved[symbol]? with
      | none => simp [kindOf]
      | some value => simp [kindOf]
  | off name =>
      cases resolved[symbol]? with
      | none => simp [kindOf]
      | some value => simp [kindOf]
  | forced name =>
      cases resolved[symbol]? with
      | none => simp [kindOf]
      | some value => simp [kindOf]

/-- The verdict, symbol by symbol. -/
theorem checkRequests_eq_ok_iff
    {requests : Requests} {resolved : SymbolMap (List Char)} :
    checkRequests requests resolved = .ok () ↔
      (∀ symbol : List Char, (requests.forced[symbol]?).isSome = true →
        requests.onPins[symbol]? = none ∧
          requests.submitted[symbol]? = some SubmittedRequest.off ∧
            resolved[symbol]? = some ['y']) ∧
        ∀ (symbol : List Char) (request : Request), requests.forced[symbol]? = none →
          requests.requested[symbol]? = some request →
            (kindOf request = .off → resolved[symbol]? = none) ∧
              (kindOf request ≠ .off → resolved[symbol]? = some ['y']) := by
  have decided :
      checkRequests requests resolved = .ok () ↔
        requests.forced.toList.filterMap (pinConflict requests) = [] ∧
          requests.forced.toList.filterMap (missingOffRequest requests) =
              [] ∧
            (finalRequests requests).toList.filterMap (mismatch resolved) =
              [] := by
    rw [checkRequests]
    constructor
    · intro accepted
      split_ifs at accepted with pins offs mismatches
      exact ⟨not_not.1 pins, not_not.1 offs, not_not.1 mismatches⟩
    · rintro ⟨pins, offs, mismatches⟩
      rw [if_neg (not_not.2 pins), if_neg (not_not.2 offs),
        if_neg (not_not.2 mismatches)]
  rw [decided, filterMap_toList_eq_nil_iff, filterMap_toList_eq_nil_iff,
    filterMap_toList_eq_nil_iff]
  constructor
  · rintro ⟨pins, offs, met⟩
    constructor
    · intro symbol marked
      rcases Option.isSome_iff_exists.1 marked with ⟨name, held⟩
      refine ⟨?_, ?_, ?_⟩
      · simpa [pinConflict] using pins symbol name held
      · simpa [missingOffRequest] using offs symbol name held
      · have final : (finalRequests requests)[symbol]? =
            some (.forced name) := by
          rw [getElem?_finalRequests, held]
          rfl
        exact
          (mismatch_eq_none_iff.1 (met symbol _ final)).2
            (by simp [kindOf])
    · intro symbol request unmarked held
      have final : (finalRequests requests)[symbol]? = some request := by
        rw [getElem?_finalRequests, unmarked, held]
        rfl
      exact mismatch_eq_none_iff.1 (met symbol _ final)
  · rintro ⟨marked, unmarked⟩
    refine ⟨?_, ?_, ?_⟩
    · intro symbol name held
      simp [pinConflict, (marked symbol (by simp [held])).1]
    · intro symbol name held
      simp [missingOffRequest, (marked symbol (by simp [held])).2.1]
    · intro symbol request final
      rw [getElem?_finalRequests] at final
      rw [mismatch_eq_none_iff]
      cases held : requests.forced[symbol]? with
      | none =>
          rw [held] at final
          exact unmarked symbol request held final
      | some name =>
          rw [held] at final
          cases final
          refine ⟨(fun impossible => nomatch impossible), fun _ => ?_⟩
          exact (marked symbol (by simp [held])).2.2

section

variable {debug : List Char → String} {fragments : List Fragment}
    {config : List Char}

/-- The verdict against the lines of the fragments and of the `.config`. -/
theorem checkFragmentOptions_eq_ok_iff_meets :
    checkFragmentOptions debug fragments config = .ok () ↔
      Meets fragments config := by
  rw [checkFragmentOptions, bind_eq_ok]
  constructor
  · rintro ⟨requests, read, checked⟩
    rcases checkRequests_eq_ok_iff.1 checked with ⟨marked, unmarked⟩
    have isMarked {symbol : List Char} (valid : validSymbol symbol = true)
        (member : forceLine symbol ∈ allLines fragments) :=
      marked symbol ((isSome_forced_iff read valid).2 member)
    have isUnmarked {symbol : List Char} (valid : validSymbol symbol = true)
        (absent : forceLine symbol ∉ allLines fragments) :
        requests.forced[symbol]? = none := by
      rw [← Option.not_isSome_iff_eq_none, isSome_forced_iff read valid]
      exact absent
    constructor
    · exact (readFragments_eq_ok_iff.1 read).1
    · intro symbol valid member
      exact (onPins_eq_none_iff read valid).1 (isMarked valid member).1
    · intro symbol valid member
      exact (submitted_off_iff read valid).1 (isMarked valid member).2.1
    · intro symbol valid member
      exact
        (getElem?_values_eq_some_iff valid).1 (isMarked valid member).2.2
    · intro symbol valid absent line last isOn
      have asked := (requested_on_iff read valid).2 ⟨line, last, isOn⟩
      rcases Option.map_eq_some_iff.1 asked with ⟨request, held, kind⟩
      apply (getElem?_values_eq_some_iff valid).1
      apply (unmarked symbol request (isUnmarked valid absent) held).2
      rw [kind]
      decide
    · intro symbol valid absent line last isOff
      have asked := (requested_off_iff read valid).2 ⟨line, last, isOff⟩
      rcases Option.map_eq_some_iff.1 asked with ⟨request, held, kind⟩
      apply (getElem?_values_eq_none_iff valid).1
      exact (unmarked symbol request (isUnmarked valid absent) held).1 kind
  · intro meets
    have read :=
      (@readFragments_eq_ok_iff debug fragments _).2 ⟨meets.canonical, rfl⟩
    refine ⟨_, read, ?_⟩
    apply checkRequests_eq_ok_iff.2
    constructor
    · intro symbol marked
      have valid := validSymbol_of_forced read marked
      have member := (isSome_forced_iff read valid).1 marked
      exact
        ⟨(onPins_eq_none_iff read valid).2
            (meets.forced_unpinned symbol valid member),
          (submitted_off_iff read valid).2
            (meets.forced_off symbol valid member),
          (getElem?_values_eq_some_iff valid).2
            (meets.forced_resolved symbol valid member)⟩
    · intro symbol request unmarked held
      have valid := validSymbol_of_requested read
        (Option.isSome_iff_exists.2 ⟨request, held⟩)
      have absent : forceLine symbol ∉ allLines fragments := by
        intro member
        have marked := (isSome_forced_iff read valid).2 member
        rw [unmarked] at marked
        cases marked
      have asked :
          _ = some (kindOf request) := congrArg (Option.map kindOf) held
      cases kind : kindOf request with
      | on =>
          rw [kind] at asked
          rcases (requested_on_iff read valid).1 asked with
            ⟨line, last, isOn⟩
          refine ⟨(fun impossible => nomatch impossible), fun _ => ?_⟩
          exact
            (getElem?_values_eq_some_iff valid).2
              (meets.on_resolved symbol valid absent line last isOn)
      | off =>
          rw [kind] at asked
          rcases (requested_off_iff read valid).1 asked with
            ⟨line, last, isOff⟩
          refine ⟨fun _ => ?_, fun impossible => absurd rfl impossible⟩
          exact
            (getElem?_values_eq_none_iff valid).2
              (meets.off_resolved symbol valid absent line last isOff)
      | forced =>
          rw [kind] at asked
          exact absurd asked (requested_ne_forced read symbol)

/-! ## Where the markers stand -/

theorem not_assigns_forceLine
    {symbol : List Char} (valid : validSymbol symbol = true)
    (forced : List Char) :
    ¬ Assigns symbol (forceLine forced) := by
  rintro ⟨value, same⟩
  rcases exists_name_of_validSymbol valid with ⟨name, rfl, -, -⟩
  exact absurd (List.cons.inj same).1 (by decide)

theorem unsetLine_ne_forceLine (symbol forced : List Char) :
    forceLine forced ≠ unsetLine symbol := by
  intro same
  have forcedEnd : (forceLine forced).getLast? = some 'n' := by
    rw [forceLine, List.getLast?_append]
    rfl
  have unsetEnd : (unsetLine symbol).getLast? = some 't' := by
    rw [unsetLine, List.getLast?_append]
    rfl
  rw [same, unsetEnd] at forcedEnd
  exact absurd forcedEnd (by decide)

theorem not_mergeVisible_forceLine
    {symbol : List Char} (valid : validSymbol symbol = true)
    (forced : List Char) :
    ¬ MergeVisible symbol (forceLine forced) := by
  rintro (assigns | unset)
  · exact not_assigns_forceLine valid forced assigns
  · exact unsetLine_ne_forceLine symbol forced unset

theorem not_requestsBoolean_forceLine
    {symbol : List Char} (valid : validSymbol symbol = true)
    (forced : List Char) :
    ¬ RequestsBoolean symbol (forceLine forced) := by
  rintro ((yes | module) | (no | unset))
  · exact not_assigns_forceLine valid forced ⟨_, yes⟩
  · exact not_assigns_forceLine valid forced ⟨_, module⟩
  · exact not_assigns_forceLine valid forced ⟨_, no⟩
  · exact unsetLine_ne_forceLine symbol forced unset

/-- Only the order of the lines that are no markers matters. -/
theorem Meets.of_moved_marker
    {others : List Fragment} {forced : List Char}
    {before after otherBefore otherAfter : List (List Char)}
    (meets : Meets fragments config)
    (split : allLines fragments = before ++ forceLine forced :: after)
    (otherSplit :
      allLines others = otherBefore ++ forceLine forced :: otherAfter)
    (same : before ++ after = otherBefore ++ otherAfter) :
    Meets others config := by
  have sameMembers (line : List Char) :
      line ∈ allLines others ↔ line ∈ allLines fragments := by
    have members : line ∈ before ++ after ↔ line ∈ otherBefore ++ otherAfter :=
      same ▸ Iff.rfl
    rw [split, otherSplit]
    simp only [List.mem_append, List.mem_cons] at members ⊢
    tauto
  have sameLast
      {Relevant : List Char → Prop}
      (irrelevant : ¬ Relevant (forceLine forced)) (line : List Char) :
      IsLast Relevant (allLines others) line ↔
        IsLast Relevant (allLines fragments) line := by
    rw [split, otherSplit, isLast_insert_iff irrelevant,
      isLast_insert_iff irrelevant, same]
  constructor
  · intro line member
    exact meets.canonical line ((sameMembers line).1 member)
  · intro symbol valid member line isLine
    exact
      meets.forced_unpinned symbol valid ((sameMembers _).1 member) line
        ((sameMembers line).1 isLine)
  · intro symbol valid member
    rcases meets.forced_off symbol valid ((sameMembers _).1 member) with
      ⟨line, last, isOff⟩
    exact
      ⟨line, (sameLast (not_mergeVisible_forceLine valid forced) line).2 last,
        isOff⟩
  · intro symbol valid member
    exact meets.forced_resolved symbol valid ((sameMembers _).1 member)
  · intro symbol valid absent line last
    exact
      meets.on_resolved symbol valid ((sameMembers _).not.1 absent) line
        ((sameLast (not_requestsBoolean_forceLine valid forced) line).1 last)
  · intro symbol valid absent line last
    exact
      meets.off_resolved symbol valid ((sameMembers _).not.1 absent) line
        ((sameLast (not_requestsBoolean_forceLine valid forced) line).1 last)

theorem Meets.of_same_lines
    {others : List Fragment} (meets : Meets fragments config)
    (same : allLines others = allLines fragments) :
    Meets others config := by
  constructor
  · rw [same]
    exact meets.canonical
  · rw [same]
    exact meets.forced_unpinned
  · rw [same]
    exact meets.forced_off
  · rw [same]
    exact meets.forced_resolved
  · rw [same]
    exact meets.on_resolved
  · rw [same]
    exact meets.off_resolved

/--
The fragments are accepted exactly if they meet the specification, and neither
how their lines are spread over fragments nor where a marker stands matters.
-/
theorem checkFragmentOptions_decides (debug : List Char → String)
    (fragments : List Fragment) (config : List Char) :
    (checkFragmentOptions debug fragments config = .ok () ↔
        Meets fragments config) ∧
      (∀ others, allLines others = allLines fragments →
        (checkFragmentOptions debug others config = .ok () ↔
          checkFragmentOptions debug fragments config = .ok ())) ∧
      ∀ others forced before after otherBefore otherAfter,
        allLines fragments = before ++ forceLine forced :: after →
          allLines others = otherBefore ++ forceLine forced :: otherAfter →
            before ++ after = otherBefore ++ otherAfter →
              (checkFragmentOptions debug others config = .ok () ↔
                checkFragmentOptions debug fragments config = .ok ()) := by
  refine ⟨checkFragmentOptions_eq_ok_iff_meets, ?_, ?_⟩
  · intro others same
    rw [checkFragmentOptions_eq_ok_iff_meets,
      checkFragmentOptions_eq_ok_iff_meets]
    constructor
    · intro meets
      exact meets.of_same_lines same.symm
    · intro meets
      exact meets.of_same_lines same
  · intro others forced before after otherBefore otherAfter split otherSplit
      same
    rw [checkFragmentOptions_eq_ok_iff_meets,
      checkFragmentOptions_eq_ok_iff_meets]
    constructor
    · intro meets
      exact meets.of_moved_marker otherSplit split same.symm
    · intro meets
      exact meets.of_moved_marker split otherSplit same

end

end Confos.Kernel.FragmentRequests
