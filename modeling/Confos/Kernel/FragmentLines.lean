import Confos.Kernel.FragmentOptions

/-!
# The canonical lines

Which lines of a fragment `classifyLine` lets through, and what each of them
is read as: an assignment, an off request or a forced-on marker is the line
that spells it, and no other.
-/

namespace Confos.Kernel.FragmentLines

open Confos.Library.Text
open Confos.Kernel.FragmentOptions

/-! ## Symbols -/

theorem exists_name_of_validSymbol
    {symbol : List Char} (valid : validSymbol symbol = true) :
    ∃ name, symbol = configStart ++ name ∧ name ≠ [] ∧
      ∀ char ∈ name, char.isAlphanum = true ∨ char = '_' := by
  rw [validSymbol] at valid
  split at valid
  · cases valid
  · rename_i name stripped
    rcases Bool.and_eq_true_iff.1 valid with ⟨nonempty, chars⟩
    refine ⟨name, stripStart_eq_some_iff.1 stripped, ?_, ?_⟩
    · simpa using nonempty
    · simpa using chars

theorem symbolChar_solid
    {char : Char} (symbolChar : char.isAlphanum = true ∨ char = '_') :
    isWhiteSpace char = false ∧ char ≠ '=' := by
  have range :
      (0x30 ≤ char.toNat ∧ char.toNat ≤ 0x39) ∨
        (0x41 ≤ char.toNat ∧ char.toNat ≤ 0x5A) ∨
          (0x61 ≤ char.toNat ∧ char.toNat ≤ 0x7A) ∨ char.toNat = 0x5F := by
    rcases symbolChar with alphanum | rfl
    · delta Char.isAlphanum Char.isAlpha Char.isUpper Char.isLower
        Char.isDigit at alphanum
      simp only [Bool.or_eq_true, decide_eq_true_eq, Bool.and_eq_true,
        ge_iff_le, UInt32.le_iff_toNat_le] at alphanum
      change
        ((65 ≤ char.toNat ∧ char.toNat ≤ 90) ∨
            (97 ≤ char.toNat ∧ char.toNat ≤ 122)) ∨
          (48 ≤ char.toNat ∧ char.toNat ≤ 57) at alphanum
      omega
    · exact Or.inr (Or.inr (Or.inr rfl))
  constructor
  · simp only [isWhiteSpace, Bool.or_eq_false_iff, Bool.and_eq_false_iff,
      decide_eq_false_iff_not]
    omega
  · rintro rfl
    revert range
    decide

theorem configStart_chars :
    ∀ char ∈ configStart, isWhiteSpace char = false ∧ char ≠ '=' := by
  have chars :
      configStart.all fun char => !isWhiteSpace char && char != '=' := by
    decide
  intro char member
  simpa using List.all_eq_true.1 chars char member

theorem validSymbol_chars
    {symbol : List Char} (valid : validSymbol symbol = true) :
    ∀ char ∈ symbol, isWhiteSpace char = false ∧ char ≠ '=' := by
  rcases exists_name_of_validSymbol valid with ⟨name, rfl, -, chars⟩
  intro char member
  rcases List.mem_append.1 member with start | inName
  · exact configStart_chars char start
  · exact symbolChar_solid (chars char inName)

theorem validSymbol_ne_nil
    {symbol : List Char} (valid : validSymbol symbol = true) :
    symbol ≠ [] := by
  rcases exists_name_of_validSymbol valid with ⟨name, rfl, -, -⟩
  exact List.cons_ne_nil _ _

theorem startsWith_configStart
    {symbol : List Char} (valid : validSymbol symbol = true) :
    configStart <+: symbol := by
  rcases exists_name_of_validSymbol valid with ⟨name, rfl, -, -⟩
  exact List.prefix_append _ _

theorem splitOnce_assignment
    {symbol : List Char} (valid : validSymbol symbol = true)
    (value : List Char) :
    splitOnce '=' (symbol ++ '=' :: value) = some (symbol, value) :=
  splitOnce_append_cons
    (fun member => (validSymbol_chars valid _ member).2 rfl) value

/-! ## Markers -/

def markerWords (isForced : Bool) : List (List Char) :=
  (if isForced then ["is", "forced", "on"] else ["is", "not", "set"]).map
    (·.toList)

def markerLine (isForced : Bool) (symbol : List Char) : List Char :=
  if isForced then forceLine symbol else unsetLine symbol

theorem markerOf_eq_some_iff
    {comment symbol : List Char} {isForced : Bool} :
    markerOf comment = some (symbol, isForced) ↔
      configStart <+: symbol ∧
        ∃ rest, words comment = symbol :: (markerWords isForced ++ rest) := by
  rw [markerOf]
  constructor
  · intro found
    split at found
    · rename_i shown first second third rest shape
      split at found
      · rename_i starts
        split at found
        · rename_i notSet
          cases found
          refine ⟨List.isPrefixOf_iff_prefix.1 starts, rest, ?_⟩
          change words comment = symbol :: ([_, _, _] ++ rest)
          rw [shape]
          change _ = symbol :: (["is", "not", "set"].map (·.toList) ++ rest)
          rw [← notSet]
          rfl
        · split at found
          · rename_i forcedOn
            cases found
            refine ⟨List.isPrefixOf_iff_prefix.1 starts, rest, ?_⟩
            rw [shape]
            change
              _ = symbol :: (["is", "forced", "on"].map (·.toList) ++ rest)
            rw [← forcedOn]
            rfl
          · cases found
      · cases found
    · cases found
  · rintro ⟨starts, rest, shape⟩
    rw [shape]
    cases isForced with
    | false =>
        change
          (if configStart.isPrefixOf symbol then
              if [_, _, _] = ["is", "not", "set"].map (·.toList) then _
              else _
            else none) = _
        rw [if_pos (List.isPrefixOf_iff_prefix.2 starts)]
        exact if_pos rfl
    | true =>
        change
          (if configStart.isPrefixOf symbol then
              if ["is", "forced", "on"].map (·.toList) = _ then _
              else if [_, _, _] = ["is", "forced", "on"].map (·.toList) then _
              else _
            else none) = _
        rw [if_pos (List.isPrefixOf_iff_prefix.2 starts),
          if_neg (by decide)]
        exact if_pos rfl

/-- The comment behind the number sign of a canonical marker. -/
theorem exists_comment_markerLine
    {symbol : List Char} (valid : validSymbol symbol = true)
    (isForced : Bool) :
    ∃ comment,
      trim (markerLine isForced symbol) = '#' :: comment ∧
        markerOf comment = some (symbol, isForced) := by
  have symbolWords : words symbol = [symbol] :=
    words_eq_singleton (validSymbol_ne_nil valid)
      fun char member => (validSymbol_chars valid char member).1
  have blank : isWhiteSpace ' ' = true := by
    decide
  cases isForced with
  | false =>
      refine ⟨' ' :: (symbol ++ ' ' :: "is not set".toList), ?_, ?_⟩
      · have ends :
            markerLine false symbol =
              '#' :: (' ' :: (symbol ++ " is not se".toList) ++ ['t']) := by
          simp [markerLine, unsetLine]
        rw [ends, trim_cons_append_singleton _ (by decide) (by decide)]
        simp
      · apply markerOf_eq_some_iff.2
        refine ⟨startsWith_configStart valid, [], ?_⟩
        rw [← List.nil_append (' ' :: _), words_append_cons _ _ blank,
          words_append_cons _ _ blank, symbolWords]
        rfl
  | true =>
      refine ⟨' ' :: (symbol ++ ' ' :: "is forced on".toList), ?_, ?_⟩
      · have ends :
            markerLine true symbol =
              '#' :: (' ' :: (symbol ++ " is forced o".toList) ++ ['n']) := by
          simp [markerLine, forceLine]
        rw [ends, trim_cons_append_singleton _ (by decide) (by decide)]
        simp
      · apply markerOf_eq_some_iff.2
        refine ⟨startsWith_configStart valid, [], ?_⟩
        rw [← List.nil_append (' ' :: _), words_append_cons _ _ blank,
          words_append_cons _ _ blank, symbolWords]
        rfl

/-! ## Lines -/

/-- The lines that are read: exact assignments, exact markers and the rest. -/
structure Canonical (line : List Char) : Prop where
  assignment :
    configStart <+: trim line →
      line = trim line ∧
        ∃ symbol value,
          line = symbol ++ '=' :: value ∧ validSymbol symbol = true ∧
            (booleanLike value = true → value ∈ [['y'], ['m'], ['n']])
  marker :
    ∀ isForced comment symbol rest,
      trim line = '#' :: comment →
        words comment = symbol :: (markerWords isForced ++ rest) →
          configStart <+: symbol →
            validSymbol symbol = true ∧ line = markerLine isForced symbol

section

variable {debug : List Char → String} {name : String} {line : List Char}

theorem classifyAssignment_eq_ok_iff {entry : Entry} :
    classifyAssignment debug name line = .ok entry ↔
      line = trim line ∧
        ∃ symbol value,
          entry = .assign symbol value ∧ line = symbol ++ '=' :: value ∧
            validSymbol symbol = true ∧
              (booleanLike value = true → value ∈ [['y'], ['m'], ['n']]) := by
  rw [classifyAssignment]
  constructor
  · intro accepted
    split at accepted
    · cases accepted
    · rename_i trimmed
      split at accepted
      · cases accepted
      · rename_i symbol value split
        split at accepted
        · cases accepted
        · rename_i valid
          split at accepted
          · cases accepted
          · rename_i canonical
            cases accepted
            refine
              ⟨not_not.1 trimmed, symbol, value, rfl, eq_of_splitOnce split,
                by simpa using valid, ?_⟩
            intro boolean
            by_contra other
            exact canonical ⟨other, boolean⟩
  · rintro ⟨trimmed, symbol, value, rfl, assigned, valid, canonical⟩
    have split : splitOnce '=' line = some (symbol, value) := by
      rw [assigned]
      exact splitOnce_assignment valid value
    have accepted :
        ¬ (value ∉ [['y'], ['m'], ['n']] ∧ booleanLike value = true) := by
      rintro ⟨other, boolean⟩
      exact other (canonical boolean)
    rw [if_neg (not_not.2 trimmed), split]
    dsimp only
    rw [if_neg (by simp [valid]), if_neg accepted]

theorem classifyMarker_eq_ok_iff
    {symbol : List Char} {isForced : Bool} {entry : Entry} :
    classifyMarker debug name line symbol isForced = .ok entry ↔
      validSymbol symbol = true ∧ line = markerLine isForced symbol ∧
        entry = if isForced then .force symbol else .unset symbol := by
  constructor
  · intro accepted
    by_cases valid : validSymbol symbol = true
    · by_cases spelled : line = markerLine isForced symbol
      · rw [classifyMarker, if_neg (by simp [valid])] at accepted
        refine ⟨valid, spelled, ?_⟩
        have read :=
          (if_neg (not_not.2 spelled)).symm.trans accepted
        cases read
        rfl
      · rw [classifyMarker, if_neg (by simp [valid])] at accepted
        cases (if_pos spelled).symm.trans accepted
    · rw [classifyMarker, if_pos (by simpa using valid)] at accepted
      cases accepted
  · rintro ⟨valid, spelled, rfl⟩
    rw [classifyMarker, if_neg (by simp [valid])]
    exact if_neg (not_not.2 spelled)

theorem isPrefix_trim_assignment
    {symbol : List Char} (valid : validSymbol symbol = true)
    (value : List Char) :
    configStart <+: trim (symbol ++ '=' :: value) := by
  apply prefix_trim
  · decide
  · intro char member
    exact (configStart_chars char member).1
  · exact (startsWith_configStart valid).trans (List.prefix_append _ _)

theorem not_assignment_of_comment
    {trimmed comment : List Char} (isComment : trimmed = '#' :: comment) :
    ¬ configStart <+: trimmed := by
  rintro ⟨rest, starts⟩
  rw [isComment] at starts
  exact absurd (List.cons.inj starts).1 (by decide)

/-- A line that is let through is spelled like the entry it is read as. -/
theorem line_of_classifyLine
    {entry : Entry}
    (read : classifyLine debug name line = .ok (some entry)) :
    line = entry.line ∧ validSymbol entry.symbol = true := by
  rw [classifyLine] at read
  split at read
  · cases classified : classifyAssignment debug name line with
    | error message =>
        rw [classified] at read
        cases read
    | ok assigned =>
        rw [classified] at read
        cases read
        rcases classifyAssignment_eq_ok_iff.1 classified with
          ⟨-, symbol, value, rfl, spelled, valid, -⟩
        exact ⟨spelled, valid⟩
  · split at read
    · split at read
      · cases read
      · rename_i symbol isForced found
        cases classified :
            classifyMarker debug name line symbol isForced with
        | error message =>
            rw [classified] at read
            cases read
        | ok marker =>
            rw [classified] at read
            cases read
            rcases classifyMarker_eq_ok_iff.1 classified with
              ⟨valid, spelled, rfl⟩
            cases isForced with
            | false => exact ⟨spelled, valid⟩
            | true => exact ⟨spelled, valid⟩
    · cases read

/-- A line that spells an entry and is let through is read as that entry. -/
theorem classifyLine_of_line
    {read : Option Entry} {entry : Entry}
    (classified : classifyLine debug name line = .ok read)
    (valid : validSymbol entry.symbol = true)
    (spelled : line = entry.line) :
    read = some entry := by
  rw [classifyLine] at classified
  have asMarker :
      ∀ isForced symbol, validSymbol symbol = true →
        line = markerLine isForced symbol →
          read =
            some (if isForced then .force symbol else .unset symbol) := by
    intro isForced symbol valid spelled
    rcases exists_comment_markerLine valid isForced with
      ⟨comment, trimmed, found⟩
    rw [← spelled] at trimmed
    have notAssignment :
        ¬ configStart.isPrefixOf (trim line) = true := by
      rw [List.isPrefixOf_iff_prefix]
      exact not_assignment_of_comment trimmed
    rw [if_neg notAssignment, trimmed] at classified
    simp only [found] at classified
    rw [classifyMarker_eq_ok_iff.2 ⟨valid, spelled, rfl⟩] at classified
    cases classified
    rfl
  cases entry with
  | assign symbol value =>
      have starts : configStart.isPrefixOf (trim line) = true := by
        rw [List.isPrefixOf_iff_prefix, spelled]
        exact isPrefix_trim_assignment valid value
      rw [if_pos starts] at classified
      cases assigned : classifyAssignment debug name line with
      | error message =>
          rw [assigned] at classified
          cases classified
      | ok assignment =>
          rw [assigned] at classified
          cases classified
          rcases classifyAssignment_eq_ok_iff.1 assigned with
            ⟨-, other, otherValue, rfl, otherSpelled, otherValid, -⟩
          have same : splitOnce '=' line = some (symbol, value) := by
            rw [spelled]
            exact splitOnce_assignment valid value
          rw [otherSpelled, splitOnce_assignment otherValid] at same
          cases same
          rfl
  | unset symbol => exact asMarker false symbol valid spelled
  | force symbol => exact asMarker true symbol valid spelled

/-- The canonical lines are those that are let through. -/
theorem exists_classifyLine_iff :
    (∃ read, classifyLine debug name line = .ok read) ↔
      Canonical line := by
  constructor
  · rintro ⟨read, classified⟩
    rw [classifyLine] at classified
    constructor
    · intro starts
      rw [if_pos (List.isPrefixOf_iff_prefix.2 starts)] at classified
      cases assigned : classifyAssignment debug name line with
      | error message =>
          rw [assigned] at classified
          cases classified
      | ok assignment =>
          rcases classifyAssignment_eq_ok_iff.1 assigned with
            ⟨trimmed, symbol, value, -, spelled, valid, canonical⟩
          exact ⟨trimmed, symbol, value, spelled, valid, canonical⟩
    · intro isForced comment symbol rest trimmed shape starts
      have found : markerOf comment = some (symbol, isForced) :=
        markerOf_eq_some_iff.2 ⟨starts, rest, shape⟩
      rw [List.isPrefixOf_iff_prefix.not.2
        (not_assignment_of_comment trimmed) |> if_neg, trimmed] at classified
      simp only [found] at classified
      cases marked : classifyMarker debug name line symbol isForced with
      | error message =>
          rw [marked] at classified
          cases classified
      | ok marker =>
          rcases classifyMarker_eq_ok_iff.1 marked with
            ⟨valid, spelled, -⟩
          exact ⟨valid, spelled⟩
  · intro canonical
    rw [classifyLine]
    split
    · rename_i starts
      rcases canonical.assignment (List.isPrefixOf_iff_prefix.1 starts) with
        ⟨trimmed, symbol, value, spelled, valid, boolean⟩
      rw [classifyAssignment_eq_ok_iff.2
        ⟨trimmed, symbol, value, rfl, spelled, valid, boolean⟩]
      exact ⟨_, rfl⟩
    · split
      · rename_i comment trimmed
        split
        · exact ⟨_, rfl⟩
        · rename_i symbol isForced found
          rcases markerOf_eq_some_iff.1 found with ⟨starts, rest, shape⟩
          rcases
            canonical.marker isForced comment symbol rest trimmed shape
              starts with
            ⟨valid, spelled⟩
          rw [classifyMarker_eq_ok_iff.2 ⟨valid, spelled, rfl⟩]
          exact ⟨_, rfl⟩
      · exact ⟨_, rfl⟩

end

end Confos.Kernel.FragmentLines
