import Mathlib.Data.Char
import Mathlib.Data.List.Basic
import Mathlib.Data.List.Induction
import Mathlib.Data.List.TakeWhile

/-!
# Text as lists of characters

Rust's string operations that the parsers of the builder use: lines, trimming,
splitting at a character or a marker, and comparison without case.
-/

namespace Confos.Library.Text

/-- The characters of Unicode's `White_Space`. -/
def isWhiteSpace (char : Char) : Bool :=
  let code := char.toNat
  (9 ≤ code && code ≤ 13) || code = 0x20 || code = 0x85 || code = 0xA0 ||
    code = 0x1680 || (0x2000 ≤ code && code ≤ 0x200A) || code = 0x2028 ||
      code = 0x2029 || code = 0x202F || code = 0x205F || code = 0x3000

/-- Without white space at both ends. -/
def trim (text : List Char) : List Char :=
  ((text.dropWhile isWhiteSpace).reverse.dropWhile isWhiteSpace).reverse

/-- A line without the carriage return in front of its end. -/
def stripReturn (line : List Char) : List Char :=
  if line.getLast? = some '\r' then line.dropLast else line

/-- The lines; the text behind the last line end is one only if not empty. -/
def lines (text : List Char) : List (List Char) :=
  let pieces := text.splitOn '\n'
  let ended := pieces.dropLast.map stripReturn
  match pieces.getLast? with
  | some [] | none => ended
  | some unended => ended ++ [unended]

/-- The text before and behind the first separator. -/
def splitOnce (separator : Char) : List Char → Option (List Char × List Char)
  | [] => none
  | char :: text =>
      if char = separator then
        some ([], text)
      else
        (splitOnce separator text).map fun split => (char :: split.1, split.2)

/-- The text before and behind the last separator. -/
def splitLast (separator : Char) (text : List Char) :
    Option (List Char × List Char) :=
  (splitOnce separator text.reverse).map fun split =>
    (split.2.reverse, split.1.reverse)

/-- The text in front of the first occurrence of a marker, or all of it. -/
def before (marker : List Char) : List Char → List Char
  | [] => []
  | char :: text =>
      if marker.isPrefixOf (char :: text) then
        []
      else
        char :: before marker text

/-- Whether a marker occurs in a text. -/
def containsText (marker text : List Char) : Bool :=
  text.tails.any marker.isPrefixOf

/-- The text behind a known start. -/
def stripStart (start text : List Char) : Option (List Char) :=
  if start.isPrefixOf text then some (text.drop start.length) else none

/-- The pieces between white space. -/
def words (text : List Char) : List (List Char) :=
  (text.splitOnP isWhiteSpace).filter (· ≠ [])

/-- Equality of texts whose ASCII letters may differ in case. -/
def eqIgnoreCase (left right : List Char) : Bool :=
  left.map Char.toLower = right.map Char.toLower

/-! ## Digits -/

theorem isDigit_iff {char : Char} :
    char.isDigit = true ↔ 48 ≤ char.toNat ∧ char.toNat ≤ 57 := by
  rw [Char.isDigit, Bool.and_eq_true, decide_eq_true_iff,
    decide_eq_true_iff]
  rfl

theorem isWhiteSpace_of_isDigit
    {char : Char} (digit : char.isDigit = true) :
    isWhiteSpace char = false := by
  rw [isDigit_iff] at digit
  rw [isWhiteSpace]
  simp only [Bool.or_eq_false_iff, Bool.and_eq_false_iff,
    decide_eq_false_iff_not]
  omega

/-! ## Case -/

theorem toNat_toLower (char : Char) :
    char.toLower.toNat =
      if 65 ≤ char.toNat ∧ char.toNat ≤ 90 then
        char.toNat + 32
      else
        char.toNat := by
  delta Char.toLower
  split
  · next upper =>
      have bounds : 65 ≤ char.toNat ∧ char.toNat ≤ 90 := upper
      rw [if_pos bounds]
      change (char.val + ('a'.val - 'A'.val)).toNat = char.val.toNat + 32
      rw [UInt32.toNat_add]
      exact Nat.mod_eq_of_lt (by simp; omega)
  · next other => exact (if_neg other).symm

theorem toNat_toUpper (char : Char) :
    char.toUpper.toNat =
      if 97 ≤ char.toNat ∧ char.toNat ≤ 122 then
        char.toNat - 32
      else
        char.toNat := by
  delta Char.toUpper
  split
  · next lower =>
      have bounds : 97 ≤ char.toNat ∧ char.toNat ≤ 122 := lower
      rw [if_pos bounds]
      change (char.val + ('A'.val - 'a'.val)).toNat = char.val.toNat - 32
      rw [UInt32.toNat_add]
      simp
      omega
  · next other => exact (if_neg other).symm

/-- A character is another one in either case. -/
theorem toLower_eq_or_toUpper_eq_iff {char other : Char} :
    char.toLower = other ∨ char.toUpper = other ↔
      char.toLower = other.toLower := by
  simp only [← Char.toNat_inj, toNat_toLower, toNat_toUpper]
  grind

/-! ## Numbers -/

/-- Numbers differ in their decimal digits. -/
theorem toDigits_injective : Function.Injective (Nat.toDigits 10) := by
  intro left right same
  have values := congrArg (fun digits => Nat.ofDigitChars 10 digits 0) same
  simp only [Nat.ofDigitChars_ten_toDigits] at values
  exact values

/-! ## Splitting -/

theorem stripStart_eq_some_iff {start text rest : List Char} :
    stripStart start text = some rest ↔ text = start ++ rest := by
  rw [stripStart]
  constructor
  · intro stripped
    split at stripped
    · rename_i isPrefix
      cases stripped
      rcases List.isPrefixOf_iff_prefix.1 isPrefix with ⟨tail, rfl⟩
      rw [List.drop_left]
    · cases stripped
  · rintro rfl
    rw [if_pos (List.isPrefixOf_iff_prefix.2 ⟨rest, rfl⟩), List.drop_left]

theorem splitOnce_append_cons
    {separator : Char} {front : List Char} (absent : separator ∉ front)
    (back : List Char) :
    splitOnce separator (front ++ separator :: back) = some (front, back) := by
  induction front with
  | nil => simp [splitOnce]
  | cons char front induction =>
      rcases not_or.1 (List.mem_cons.not.1 absent) with ⟨different, later⟩
      rw [List.cons_append, splitOnce, if_neg (Ne.symm different),
        induction later]
      rfl

theorem eq_of_splitOnce
    {separator : Char} {text front back : List Char}
    (split : splitOnce separator text = some (front, back)) :
    text = front ++ separator :: back := by
  induction text generalizing front with
  | nil => cases split
  | cons char text induction =>
      rw [splitOnce] at split
      split at split
      · rename_i isSeparator
        cases split
        rw [isSeparator]
        rfl
      · rcases Option.map_eq_some_iff.1 split with
          ⟨⟨first, rest⟩, later, whole⟩
        cases whole
        rw [induction later]
        rfl

theorem eq_of_splitLast
    {separator : Char} {text front back : List Char}
    (split : splitLast separator text = some (front, back)) :
    text = front ++ separator :: back := by
  rcases Option.map_eq_some_iff.1 split with ⟨⟨after, before⟩, found, whole⟩
  cases whole
  rw [← List.reverse_reverse text, eq_of_splitOnce found]
  simp

/-- A list without an item is at the end of another only behind that item. -/
theorem suffix_append_cons_iff
    {α : Type} {ending front back : List α} {char : α} (absent : char ∉ ending) :
    ending <:+ front ++ char :: back ↔ ending <:+ back := by
  constructor
  · intro suffix
    have later : char :: back <:+ front ++ char :: back :=
      List.suffix_append front _
    rcases List.suffix_or_suffix_of_suffix suffix later with short | long
    · rcases List.suffix_cons_iff.1 short with rfl | inside
      · exact absurd List.mem_cons_self absent
      · exact inside
    · exact absurd (long.subset List.mem_cons_self) absent
  · intro suffix
    exact
      (suffix.trans (List.suffix_cons char back)).trans
        (List.suffix_append front _)

/-- No piece holds a separator. -/
theorem eq_false_of_mem_splitOnP
    {α : Type} {separates : α → Bool} {text piece : List α} {char : α}
    (isPiece : piece ∈ text.splitOnP separates) (inside : char ∈ piece) :
    separates char = false := by
  induction text generalizing piece with
  | nil =>
      rw [List.splitOnP_nil, List.mem_singleton] at isPiece
      rw [isPiece] at inside
      cases inside
  | cons first text induction =>
      rw [List.splitOnP_cons_eq_if_modifyHead] at isPiece
      split at isPiece
      · rcases List.mem_cons.1 isPiece with rfl | later
        · cases inside
        · exact induction later inside
      · rename_i solid
        cases pieces : text.splitOnP separates with
        | nil => exact absurd pieces (List.splitOnP_ne_nil separates text)
        | cons head rest =>
            rw [pieces] at isPiece induction
            rcases List.mem_cons.1 isPiece with rfl | later
            · rcases List.mem_cons.1 inside with rfl | deeper
              · exact Bool.eq_false_iff.2 solid
              · exact induction List.mem_cons_self deeper
            · exact induction (List.mem_cons_of_mem _ later) inside

/-- Splitting at two kinds of separators is splitting at one and the other. -/
theorem splitOnP_or (first second : Char → Bool) (text : List Char) :
    text.splitOnP (fun char => first char || second char) =
      (text.splitOnP first).flatMap (·.splitOnP second) := by
  induction text with
  | nil => rfl
  | cons char text induction =>
      rw [List.splitOnP_cons_eq_if_modifyHead,
        List.splitOnP_cons_eq_if_modifyHead, induction]
      by_cases isFirst : first char = true
      · rw [isFirst, Bool.true_or, if_pos rfl, if_pos rfl,
          List.flatMap_cons]
        rfl
      · rw [Bool.eq_false_iff.2 isFirst, Bool.false_or,
          if_neg Bool.false_ne_true]
        cases pieces : text.splitOnP first with
        | nil => exact absurd pieces (List.splitOnP_ne_nil first text)
        | cons piece others =>
            rw [List.modifyHead_cons, List.flatMap_cons, List.flatMap_cons,
              List.splitOnP_cons_eq_if_modifyHead]
            cases within : piece.splitOnP second with
            | nil => exact absurd within (List.splitOnP_ne_nil second piece)
            | cons head rest =>
                by_cases isSecond : second char = true
                · rw [if_pos isSecond, if_pos isSecond]
                  rfl
                · rw [if_neg isSecond, if_neg isSecond]
                  rfl

/-- The first piece is what stands before the first separator. -/
theorem exists_splitOnP (separates : Char → Bool) (text : List Char) :
    ∃ others,
      text.splitOnP separates =
        text.takeWhile (fun char => !separates char) :: others := by
  induction text with
  | nil => exact ⟨[], rfl⟩
  | cons char text induction =>
      rw [List.splitOnP_cons_eq_if_modifyHead]
      by_cases isSeparator : separates char = true
      · rw [if_pos isSeparator,
          List.takeWhile_cons_of_neg (by simp [isSeparator])]
        exact ⟨_, rfl⟩
      · rcases induction with ⟨others, pieces⟩
        rw [if_neg isSeparator, pieces, List.modifyHead_cons,
          List.takeWhile_cons_of_pos (by simpa using isSeparator)]
        exact ⟨others, rfl⟩

/-! ## White space -/

theorem words_append_cons
    (front back : List Char) {blank : Char}
    (isBlank : isWhiteSpace blank = true) :
    words (front ++ blank :: back) = words front ++ words back := by
  rw [words, words, words, List.splitOnP_append_cons _ _ isBlank,
    List.filter_append]

theorem words_eq_singleton
    {word : List Char} (nonempty : word ≠ [])
    (solid : ∀ char ∈ word, isWhiteSpace char = false) :
    words word = [word] := by
  rw [words, List.splitOnP_eq_singleton solid]
  simp [nonempty]

/-- The pieces between characters that a test accepts. -/
def wordsBy (separates : Char → Bool) (text : List Char) :
    List (List Char) :=
  (text.splitOnP separates).filter (· ≠ [])

theorem words_eq_wordsBy (text : List Char) :
    words text = wordsBy isWhiteSpace text :=
  rfl

section

variable {separates : Char → Bool}

theorem splitOnP_congr
    {other : Char → Bool} {text : List Char}
    (same : ∀ char ∈ text, separates char = other char) :
    text.splitOnP separates = text.splitOnP other := by
  induction text with
  | nil => rfl
  | cons char text induction =>
      rcases List.forall_mem_cons.1 same with ⟨first, rest⟩
      rw [List.splitOnP_cons_eq_if_modifyHead,
        List.splitOnP_cons_eq_if_modifyHead, first, induction rest]

theorem wordsBy_append_cons
    (front back : List Char) {separator : Char}
    (isSeparator : separates separator = true) :
    wordsBy separates (front ++ separator :: back) =
      wordsBy separates front ++ wordsBy separates back := by
  rw [wordsBy, wordsBy, wordsBy,
    List.splitOnP_append_cons _ _ isSeparator, List.filter_append]

/-- Separators at the front do not count. -/
theorem wordsBy_append_of_separators
    {lead text : List Char} (blank : ∀ char ∈ lead, separates char = true) :
    wordsBy separates (lead ++ text) = wordsBy separates text := by
  induction lead with
  | nil => rfl
  | cons char lead induction =>
      rcases List.forall_mem_cons.1 blank with ⟨first, rest⟩
      rw [List.cons_append, wordsBy, List.splitOnP_cons_eq_if_modifyHead,
        if_pos first, List.filter_cons_of_neg (by simp), ← wordsBy,
        induction rest]

theorem wordsBy_append_of_word
    {word tail : List Char} (nonempty : word ≠ [])
    (solid : ∀ char ∈ word, separates char = false)
    (ended : ∀ char ∈ tail.head?, separates char = true) :
    wordsBy separates (word ++ tail) = word :: wordsBy separates tail := by
  cases tail with
  | nil =>
      rw [List.append_nil, wordsBy, List.splitOnP_eq_singleton solid]
      simp [nonempty, wordsBy]
  | cons char tail =>
      have first := ended char rfl
      have skipped :
          wordsBy separates (char :: tail) = wordsBy separates tail :=
        @wordsBy_append_of_separators separates [char] tail
          (List.forall_mem_singleton.2 first)
      rw [skipped, wordsBy, List.splitOnP_append_cons _ _ first,
        List.filter_append, List.splitOnP_eq_singleton solid,
        List.filter_cons_of_pos (by simpa using nonempty), List.filter_nil,
        List.singleton_append, wordsBy]

/-- A text is a run of characters that a test accepts, and what follows. -/
theorem exists_run (accepts : Char → Bool) (text : List Char) :
    ∃ run tail,
      text = run ++ tail ∧ (∀ char ∈ run, accepts char = true) ∧
        ∀ char ∈ tail.head?, accepts char = false := by
  induction text with
  | nil => exact ⟨[], [], by simp⟩
  | cons char text induction =>
      by_cases accepted : accepts char = true
      · rcases induction with ⟨run, tail, rfl, all, ended⟩
        exact
          ⟨char :: run, tail, rfl, List.forall_mem_cons.2 ⟨accepted, all⟩,
            ended⟩
      · exact ⟨[], char :: text, by simpa using accepted⟩

/-- The first word of a text, and what is around it. -/
theorem wordsBy_eq_cons_iff
    {text first : List Char} {rest : List (List Char)} :
    wordsBy separates text = first :: rest ↔
      ∃ lead tail,
        text = lead ++ (first ++ tail) ∧
          (∀ char ∈ lead, separates char = true) ∧ first ≠ [] ∧
            (∀ char ∈ first, separates char = false) ∧
              (∀ char ∈ tail.head?, separates char = true) ∧
                wordsBy separates tail = rest := by
  constructor
  · intro split
    rcases exists_run separates text with ⟨lead, inner, rfl, blank, inside⟩
    rcases exists_run (fun char => !separates char) inner with
      ⟨word, tail, rfl, solid, ended⟩
    simp only [Bool.not_eq_true', Bool.not_eq_false'] at solid ended
    rw [wordsBy_append_of_separators blank] at split
    by_cases nonempty : word = []
    · rw [nonempty] at split inside
      cases tail with
      | nil => cases split
      | cons char tail =>
          exact
            absurd ((inside char rfl).symm.trans (ended char rfl)) (by simp)
    · rw [wordsBy_append_of_word nonempty solid ended] at split
      rcases List.cons.inj split with ⟨rfl, rfl⟩
      exact ⟨lead, tail, rfl, blank, nonempty, solid, ended, rfl⟩
  · rintro ⟨lead, tail, rfl, blank, nonempty, solid, ended, rfl⟩
    rw [wordsBy_append_of_separators blank,
      wordsBy_append_of_word nonempty solid ended]

end

/-- Trimming takes white space off both ends. -/
theorem exists_eq_append_trim (text : List Char) :
    ∃ lead tail,
      text = lead ++ trim text ++ tail ∧
        (∀ char ∈ lead, isWhiteSpace char = true) ∧
          ∀ char ∈ tail, isWhiteSpace char = true := by
  refine
    ⟨text.takeWhile isWhiteSpace,
      ((text.dropWhile isWhiteSpace).reverse.takeWhile isWhiteSpace).reverse,
      ?_, fun char => List.mem_takeWhile_imp, fun char member => ?_⟩
  · rw [trim, List.append_assoc, ← List.reverse_append,
      List.takeWhile_append_dropWhile, List.reverse_reverse,
      List.takeWhile_append_dropWhile]
  · exact List.mem_takeWhile_imp (List.mem_reverse.1 member)

/-- White space in front of other text is dropped. -/
theorem dropWhile_append_of_white
    {lead : List Char} (white : ∀ char ∈ lead, isWhiteSpace char = true)
    {char : Char} (solid : isWhiteSpace char = false) (rest : List Char) :
    (lead ++ char :: rest).dropWhile isWhiteSpace = char :: rest := by
  rw [List.dropWhile_append_of_pos white,
    List.dropWhile_cons_of_neg (by simp [solid])]

/-- Nothing is dropped from a text that starts with another character. -/
theorem dropWhile_eq_self
    {drops : Char → Bool} {text : List Char}
    (solid : ∀ char ∈ text, drops char = false) :
    text.dropWhile drops = text := by
  cases text with
  | nil => rfl
  | cons char text =>
      exact List.dropWhile_cons_of_neg (by simp [solid])

/-- A start without white space is not trimmed away. -/
theorem prefix_trim
    {start text : List Char} (nonempty : start ≠ [])
    (solid : ∀ char ∈ start, isWhiteSpace char = false)
    (starts : start <+: text) :
    start <+: trim text := by
  rcases starts with ⟨rest, rfl⟩
  have kept :
      (start ++ rest).dropWhile isWhiteSpace = start ++ rest := by
    cases start with
    | nil => exact absurd rfl nonempty
    | cons char start =>
        exact List.dropWhile_cons_of_neg (by simp [solid])
  have shortened :
      ∀ rest : List Char,
        start <+:
          ((start ++ rest).reverse.dropWhile isWhiteSpace).reverse := by
    intro rest
    induction rest using List.reverseRecOn with
    | nil =>
        refine ⟨[], ?_⟩
        rw [List.append_nil,
          dropWhile_eq_self (by simpa using solid), List.reverse_reverse]
    | append_singleton rest char induction =>
        rw [← List.append_assoc, List.reverse_append, List.reverse_singleton,
          List.singleton_append, List.dropWhile_cons]
        split
        · exact induction
        · rw [List.reverse_cons, List.reverse_reverse, List.append_assoc]
          exact List.prefix_append _ _
  rw [trim, kept]
  exact shortened rest

/-- A text without white space is not trimmed. -/
theorem trim_eq_self {text : List Char}
    (solid : ∀ char ∈ text, isWhiteSpace char = false) : trim text = text := by
  rw [trim, dropWhile_eq_self solid,
    dropWhile_eq_self (by simpa using solid), List.reverse_reverse]

/-- A text without white space at its ends. -/
theorem trim_cons_append_singleton
    {first last : Char} (middle : List Char)
    (firstSolid : isWhiteSpace first = false)
    (lastSolid : isWhiteSpace last = false) :
    trim (first :: (middle ++ [last])) = first :: (middle ++ [last]) := by
  rw [trim, List.dropWhile_cons_of_neg (by simp [firstSolid]),
    List.reverse_cons, List.reverse_append, List.reverse_singleton,
    List.singleton_append, List.cons_append,
    List.dropWhile_cons_of_neg (by simp [lastSolid])]
  simp

/-! ## Splitting turn by turn -/

/-- The loop of `splitOn`, in so many turns. -/
def splitTurns (text separator : String) :
    Nat → String.Pos.Raw → String.Pos.Raw → String.Pos.Raw → List String →
      Option (List String)
  | 0, _, _, _, _ => none
  | turns + 1, start, index, matched, parts =>
      if index.atEnd text then
        some (start.extract text index :: parts).reverse
      else if index.get text == matched.get separator then
        let next := index.next text
        let further := matched.next separator
        if further.atEnd separator then
          splitTurns text separator turns next next 0
            (start.extract text (next.unoffsetBy further) :: parts)
        else
          splitTurns text separator turns start next further parts
      else
        splitTurns text separator turns start
          ((index.unoffsetBy matched).next text) 0 parts

theorem splitOnAux_of_splitTurns
    {text separator : String} {turns : Nat}
    {start index matched : String.Pos.Raw} {parts split : List String}
    (ended :
      splitTurns text separator turns start index matched parts = some split) :
    String.splitOnAux text separator start index matched parts = split := by
  induction turns generalizing start index matched parts with
  | zero => cases ended
  | succ turns induction =>
      rw [splitTurns] at ended
      rw [String.splitOnAux]
      split at ended
      · next atEnd =>
          cases ended
          rw [if_pos atEnd]
      · next inside =>
          rw [if_neg inside]
          split at ended
          · next same =>
              rw [if_pos same]
              dsimp only at ended ⊢
              split at ended
              · next whole =>
                  rw [if_pos whole]
                  exact induction ended
              · next part =>
                  rw [if_neg part]
                  exact induction ended
          · next differ =>
              rw [if_neg differ]
              exact induction ended

/-- A text is split as so many turns split it. -/
theorem splitOn_of_splitTurns
    {text separator : String} {split : List String} (turns : Nat)
    (nonempty : (separator == "") = false)
    (ended : splitTurns text separator turns 0 0 0 [] = some split) :
    text.splitOn separator = split := by
  rw [String.splitOn, nonempty]
  exact splitOnAux_of_splitTurns ended

end Confos.Library.Text
