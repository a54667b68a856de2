import Confos.Library.Text

/-!
# Extended regular expressions

A pattern is matched against a text from some place on, and `ends` lists what
may be left of the text after a match.  A bracket expression is kept as the
characters it names, so that matching without case can widen it.
-/

namespace Confos.Library.Patterns

/-- The expressions of `grep -E` and of Python's `re` that scripts use. -/
inductive Pattern where
  | empty
  | oneOf (named : Char → Bool)
  | noneOf (named : Char → Bool)
  | seq (first second : Pattern)
  | alt (left right : Pattern)
  | star (inner : Pattern)
  | start
  | finish

namespace Pattern

def char (wanted : Char) : Pattern :=
  oneOf (· = wanted)

def text (wanted : List Char) : Pattern :=
  wanted.foldr (fun first rest => seq (char first) rest) empty

def all (patterns : List Pattern) : Pattern :=
  patterns.foldr seq empty

def plus (inner : Pattern) : Pattern :=
  seq inner (star inner)

def opt (inner : Pattern) : Pattern :=
  alt inner empty

/-- `-i`: a character stands for itself in either case. -/
def ignoreCase : Pattern → Pattern
  | empty => empty
  | oneOf named => oneOf fun char => named char.toLower || named char.toUpper
  | noneOf named => noneOf fun char => named char.toLower || named char.toUpper
  | seq first second => seq first.ignoreCase second.ignoreCase
  | alt left right => alt left.ignoreCase right.ignoreCase
  | star inner => star inner.ignoreCase
  | start => start
  | finish => finish

end Pattern

open Pattern
open Confos.Library.Text

/-- Repeat a matcher; a turn that takes nothing leads nowhere new. -/
def repeatEnds (once : Bool → List Char → List (List Char)) :
    Nat → Bool → List Char → List (List Char)
  | 0, _, text => [text]
  | turns + 1, atStart, text =>
      text ::
        ((once atStart text).filter (·.length < text.length)).flatMap
          (repeatEnds once turns false)

/-- What is left of a text after a match that begins where the text does; the
flag tells whether that is the beginning of the line. -/
def ends : Pattern → Bool → List Char → List (List Char)
  | empty, _, text => [text]
  | oneOf named, _, text =>
      match text with
      | [] => []
      | char :: rest => if named char then [rest] else []
  | noneOf named, _, text =>
      match text with
      | [] => []
      | char :: rest => if named char then [] else [rest]
  | seq first second, atStart, text =>
      (ends first atStart text).flatMap fun rest =>
        ends second (atStart && rest.length = text.length) rest
  | alt left right, atStart, text =>
      ends left atStart text ++ ends right atStart text
  | .star inner, atStart, text =>
      repeatEnds (ends inner) text.length atStart text
  | start, atStart, text => if atStart then [text] else []
  | finish, _, text => if text = [] then [text] else []

/-- The pattern matches somewhere in a line. -/
def search (pattern : Pattern) (line : List Char) : Bool :=
  ends pattern true line ≠ [] ||
    line.tails.tail.any fun rest => ends pattern false rest ≠ []

/-- The pattern matches the whole text. -/
def fullmatch (pattern : Pattern) (text : List Char) : Bool :=
  (ends pattern true text).any (· = [])

/-! ## What is left after a match -/

section

variable {atStart : Bool} {text rest : List Char}

theorem mem_ends_empty : rest ∈ ends empty atStart text ↔ rest = text :=
  List.mem_singleton

theorem mem_ends_oneOf {named : Char → Bool} :
    rest ∈ ends (oneOf named) atStart text ↔
      ∃ char, named char = true ∧ text = char :: rest := by
  cases text with
  | nil => simp [ends]
  | cons char text =>
      rw [ends]
      split
      · next isNamed =>
          rw [List.mem_singleton]
          constructor
          · rintro rfl
            exact ⟨char, isNamed, rfl⟩
          · rintro ⟨other, -, same⟩
            exact (List.cons.inj same).2.symm
      · next unnamed =>
          simp only [List.not_mem_nil, false_iff]
          rintro ⟨other, isNamed, same⟩
          cases same
          exact unnamed isNamed

theorem mem_ends_noneOf {named : Char → Bool} :
    rest ∈ ends (noneOf named) atStart text ↔
      ∃ char, named char = false ∧ text = char :: rest := by
  have same :
      ends (noneOf named) atStart text =
        ends (oneOf fun char => !named char) atStart text := by
    cases text with
    | nil => rfl
    | cons char text =>
        rw [ends, ends]
        cases named char <;> rfl
  rw [same, mem_ends_oneOf]
  simp only [Bool.not_eq_true']

theorem mem_ends_seq {first second : Pattern} :
    rest ∈ ends (seq first second) atStart text ↔
      ∃ middle ∈ ends first atStart text,
        rest ∈
          ends second (atStart && middle.length = text.length) middle :=
  List.mem_flatMap

theorem mem_ends_alt {left right : Pattern} :
    rest ∈ ends (alt left right) atStart text ↔
      rest ∈ ends left atStart text ∨ rest ∈ ends right atStart text :=
  List.mem_append

theorem mem_ends_finish :
    rest ∈ ends finish atStart text ↔ rest = [] ∧ text = [] := by
  rw [ends]
  split
  · next empty =>
      rw [empty, List.mem_singleton]
      simp
  · next nonempty => simp [nonempty]

end

/-! ## What a pattern takes -/

/-- The texts that a pattern takes from the front of another one. -/
def Spans (pattern : Pattern) (accepts : List Char → Prop) : Prop :=
  ∀ atStart text rest,
    rest ∈ ends pattern atStart text ↔
      ∃ found, accepts found ∧ text = found ++ rest

/-- What has to follow for a pattern to match. -/
def Begins (pattern : Pattern) (accepts : List Char → Prop) : Prop :=
  ∀ atStart text, (∃ rest, rest ∈ ends pattern atStart text) ↔ accepts text

theorem Spans.congr
    {pattern : Pattern} {accepts other : List Char → Prop}
    (spans : Spans pattern accepts)
    (same : ∀ found, accepts found ↔ other found) : Spans pattern other := by
  have predicates : accepts = other := funext fun found => propext (same found)
  rw [← predicates]
  exact spans

theorem spans_seq
    {first second : Pattern} {accepts others : List Char → Prop}
    (firstSpans : Spans first accepts) (secondSpans : Spans second others) :
    Spans (seq first second) fun found =>
      ∃ front back, found = front ++ back ∧ accepts front ∧ others back := by
  intro atStart text rest
  rw [mem_ends_seq]
  constructor
  · rintro ⟨middle, taken, later⟩
    rcases (firstSpans _ _ _).1 taken with ⟨front, accepted, rfl⟩
    rcases (secondSpans _ _ _).1 later with ⟨back, also, rfl⟩
    exact
      ⟨front ++ back, ⟨front, back, rfl, accepted, also⟩,
        (List.append_assoc front back rest).symm⟩
  · rintro ⟨_, ⟨front, back, rfl, accepted, also⟩, rfl⟩
    exact
      ⟨back ++ rest,
        (firstSpans _ _ _).2 ⟨front, accepted, List.append_assoc front back rest⟩,
        (secondSpans _ _ _).2 ⟨back, also, rfl⟩⟩

theorem spans_alt
    {left right : Pattern} {accepts others : List Char → Prop}
    (leftSpans : Spans left accepts) (rightSpans : Spans right others) :
    Spans (alt left right) fun found => accepts found ∨ others found := by
  intro atStart text rest
  rw [mem_ends_alt, leftSpans, rightSpans, ← exists_or]
  simp only [or_and_right]

theorem spans_empty : Spans empty fun found => found = [] := by
  intro atStart text rest
  rw [mem_ends_empty]
  simp [eq_comm]

theorem spans_opt
    {inner : Pattern} {accepts : List Char → Prop}
    (spans : Spans inner accepts) :
    Spans (opt inner) fun found => accepts found ∨ found = [] :=
  spans_alt spans spans_empty

/-- With `-i` a text takes what differs from it in case only. -/
theorem spans_text (wanted : List Char) :
    Spans (Pattern.text wanted).ignoreCase fun found =>
      found.map Char.toLower = wanted.map Char.toLower := by
  intro atStart text rest
  induction wanted generalizing atStart text with
  | nil =>
      rw [Pattern.text, List.foldr_nil, ignoreCase, mem_ends_empty]
      constructor
      · rintro rfl
        exact ⟨[], rfl, rfl⟩
      · rintro ⟨found, same, rfl⟩
        rw [List.map_eq_nil_iff.1 same]
        rfl
  | cons first wanted induction =>
      rw [Pattern.text, List.foldr_cons, ignoreCase, mem_ends_seq]
      constructor
      · rintro ⟨middle, taken, later⟩
        rcases mem_ends_oneOf.1 taken with ⟨char, named, rfl⟩
        rcases (induction _ _).1 later with ⟨found, same, rfl⟩
        refine ⟨char :: found, ?_, rfl⟩
        change (char :: found).map Char.toLower = _
        rw [List.map_cons, List.map_cons, same]
        rw [Bool.or_eq_true, decide_eq_true_iff, decide_eq_true_iff,
          toLower_eq_or_toUpper_eq_iff] at named
        rw [named]
      · rintro ⟨found, same, rfl⟩
        cases found with
        | nil => cases same
        | cons char found =>
            rcases List.cons.inj same with ⟨named, others⟩
            refine ⟨found ++ rest, mem_ends_oneOf.2 ⟨char, ?_, rfl⟩, ?_⟩
            · rw [Bool.or_eq_true, decide_eq_true_iff, decide_eq_true_iff,
                toLower_eq_or_toUpper_eq_iff]
              exact named
            · exact (induction _ _).2 ⟨found, others, rfl⟩

/-! ## Runs of a class of characters -/

/-- A pattern that takes one character, of those that a test accepts. -/
def Takes (pattern : Pattern) (accepts : Char → Bool) : Prop :=
  ∀ atStart text rest,
    rest ∈ ends pattern atStart text ↔
      ∃ char, accepts char = true ∧ text = char :: rest

theorem takes_oneOf (named : Char → Bool) : Takes (oneOf named) named :=
  fun _ _ _ => mem_ends_oneOf

theorem takes_noneOf (named : Char → Bool) :
    Takes (noneOf named) fun char => !named char := by
  intro atStart text rest
  simp only [mem_ends_noneOf, Bool.not_eq_true']

section

variable {pattern : Pattern} {accepts : Char → Bool}

theorem mem_repeatEnds
    (takes : Takes pattern accepts) {turns : Nat} {atStart : Bool}
    {text rest : List Char} (enough : text.length ≤ turns) :
    rest ∈ repeatEnds (ends pattern) turns atStart text ↔
      ∃ run, (∀ char ∈ run, accepts char = true) ∧ text = run ++ rest := by
  induction turns generalizing atStart text with
  | zero =>
      cases List.length_eq_zero_iff.1 (Nat.le_zero.1 enough)
      rw [repeatEnds, List.mem_singleton]
      constructor
      · rintro rfl
        exact ⟨[], fun _ impossible => absurd impossible List.not_mem_nil, rfl⟩
      · rintro ⟨run, -, split⟩
        exact (List.append_eq_nil_iff.1 split.symm).2
  | succ turns induction =>
      rw [repeatEnds, List.mem_cons, List.mem_flatMap]
      constructor
      · rintro (rfl | ⟨middle, once, later⟩)
        · exact
            ⟨[], fun _ impossible => absurd impossible List.not_mem_nil, rfl⟩
        · rcases (takes _ _ _).1 (List.mem_filter.1 once).1 with
            ⟨char, accepted, rfl⟩
          rcases (induction (Nat.le_of_succ_le_succ enough)).1 later with
            ⟨run, all, rfl⟩
          exact ⟨char :: run, List.forall_mem_cons.2 ⟨accepted, all⟩, rfl⟩
      · rintro ⟨run, all, rfl⟩
        cases run with
        | nil => exact Or.inl rfl
        | cons char run =>
            rcases List.forall_mem_cons.1 all with ⟨accepted, others⟩
            right
            refine ⟨run ++ rest, List.mem_filter.2 ⟨?_, ?_⟩, ?_⟩
            · exact (takes _ _ _).2 ⟨char, accepted, rfl⟩
            · simp
            · exact
                (induction (Nat.le_of_succ_le_succ enough)).2
                  ⟨run, others, rfl⟩

theorem spans_star (takes : Takes pattern accepts) :
    Spans (.star pattern) fun run => ∀ char ∈ run, accepts char = true :=
  fun _ _ _ => mem_repeatEnds takes (Nat.le_refl _)

theorem spans_plus (takes : Takes pattern accepts) :
    Spans (plus pattern) fun run =>
      run ≠ [] ∧ ∀ char ∈ run, accepts char = true := by
  intro atStart text rest
  rw [plus, mem_ends_seq]
  constructor
  · rintro ⟨middle, once, later⟩
    rcases (takes _ _ _).1 once with ⟨char, accepted, rfl⟩
    rcases (spans_star takes _ _ _).1 later with ⟨run, all, rfl⟩
    exact
      ⟨char :: run,
        ⟨List.cons_ne_nil _ _, List.forall_mem_cons.2 ⟨accepted, all⟩⟩, rfl⟩
  · rintro ⟨run, ⟨nonempty, all⟩, rfl⟩
    cases run with
    | nil => exact absurd rfl nonempty
    | cons char run =>
        rcases List.forall_mem_cons.1 all with ⟨accepted, others⟩
        exact
          ⟨run ++ rest, (takes _ _ _).2 ⟨char, accepted, rfl⟩,
            (spans_star takes _ _ _).2 ⟨run, others, rfl⟩⟩

end

/-! ## Matches -/

theorem begins_seq
    {first second : Pattern} {accepts others : List Char → Prop}
    (spans : Spans first accepts) (begins : Begins second others) :
    Begins (seq first second) fun text =>
      ∃ front back, text = front ++ back ∧ accepts front ∧ others back := by
  intro atStart text
  constructor
  · rintro ⟨rest, member⟩
    rcases mem_ends_seq.1 member with ⟨back, taken, later⟩
    rcases (spans _ _ _).1 taken with ⟨front, accepted, rfl⟩
    exact ⟨front, back, rfl, accepted, (begins _ _).1 ⟨rest, later⟩⟩
  · rintro ⟨front, back, rfl, accepted, also⟩
    rcases (begins _ _).2 also with ⟨rest, later⟩
    exact
      ⟨rest,
        mem_ends_seq.2 ⟨back, (spans _ _ _).2 ⟨front, accepted, rfl⟩, later⟩⟩

/-- `(class|$)`: the text ends or goes on with a character of the class. -/
theorem begins_class_or_finish
    {pattern : Pattern} {accepts : Char → Bool}
    (takes : Takes pattern accepts) :
    Begins (alt pattern finish) fun text =>
      ∀ char ∈ text.head?, accepts char = true := by
  intro atStart text
  simp only [mem_ends_alt, mem_ends_finish]
  constructor
  · rintro ⟨rest, taken | ⟨-, rfl⟩⟩
    · rcases (takes _ _ _).1 taken with ⟨char, accepted, rfl⟩
      rintro _ ⟨⟩
      exact accepted
    · rintro _ ⟨⟩
  · intro ended
    cases text with
    | nil => exact ⟨[], Or.inr ⟨rfl, rfl⟩⟩
    | cons char text =>
        exact ⟨text, Or.inl ((takes _ _ _).2 ⟨char, ended char rfl, rfl⟩)⟩

/-- A pattern that begins with `^` matches a line at its front or nowhere. -/
theorem search_start_iff
    {pattern : Pattern} {accepts : List Char → Prop} {line : List Char}
    (begins : Begins pattern accepts) :
    search (seq start pattern) line = true ↔ accepts line := by
  have inside (rest : List Char) :
      ends (seq start pattern) false rest = [] := by
    rw [ends, ends, if_neg Bool.false_ne_true, List.flatMap_nil]
  have front :
      ends (seq start pattern) true line = ends pattern true line := by
    rw [ends, ends, if_pos rfl, List.flatMap_singleton]
    simp
  have nowhere :
      (line.tails.tail.any fun rest =>
        ends (seq start pattern) false rest ≠ []) = false := by
    rw [List.any_eq_false]
    intro rest _
    rw [inside]
    simp
  rw [search, front, nowhere, Bool.or_false, decide_eq_true_iff]
  constructor
  · intro matched
    exact (begins _ _).1 (List.exists_mem_of_ne_nil _ matched)
  · intro accepted
    rcases (begins _ _).2 accepted with ⟨rest, member⟩
    exact List.ne_nil_of_mem member

end Confos.Library.Patterns
