import Mathlib.Data.List.TakeWhile

/-!
# Words of the shell

How a shell splits a line into words and takes the quotes away, for lines
which it neither expands nor takes apart in any other way.  A word is written
for the shell as it stands, or between single quotes, which are closed around
each quote of the word itself.
-/

namespace Confos.Library.ShellWords

/-! ## Reading a line -/

/-- How the next character of a line is taken. -/
inductive Quoting where
  | bare
  | single
  | escaped

def isBlank (char : Char) : Bool :=
  char = ' ' || char = '\t'

/-- Characters which do something where nothing quotes them. -/
def isSpecial (char : Char) : Bool :=
  "|&;<>()$`\"*?[]#~!^\x7b\x7d\n".toList.contains char

/-- The word that is being read, with one more character. -/
def extend (word : Option (List Char)) (char : Char) : Option (List Char) :=
  some (word.getD [] ++ [char])

/--
The words of the rest of a line, the first of which may have begun before.
Lines that leave a quote open, or hold a character that does more than to stand
for itself, are not read.
-/
def readFrom : Quoting → Option (List Char) → List Char →
    Option (List (List Char))
  | .bare, word, [] => some word.toList
  | .single, _, [] => none
  | .escaped, _, [] => none
  | .bare, word, char :: rest =>
      if isBlank char then
        (word.toList ++ ·) <$> readFrom .bare none rest
      else if char = '\'' then
        readFrom .single (some (word.getD [])) rest
      else if char = '\\' then
        readFrom .escaped word rest
      else if isSpecial char then
        none
      else
        readFrom .bare (extend word char) rest
  | .single, word, char :: rest =>
      if char = '\'' then
        readFrom .bare word rest
      else
        readFrom .single (extend word char) rest
  | .escaped, word, char :: rest =>
      -- a line that goes on behind its end
      if char = '\n' then
        readFrom .bare word rest
      else
        readFrom .bare (extend word char) rest

def readWords (line : List Char) : Option (List (List Char)) :=
  readFrom .bare none line

/-! ## Commands -/

def isNameChar (char : Char) : Bool :=
  char.isAlphanum || char = '_'

/-- `NAME=value` in front of a command. -/
def isAssignment (word : List Char) : Bool :=
  (match word with
    | char :: _ => isNameChar char && !char.isDigit
    | [] => false) &&
    (word.dropWhile isNameChar).head? = some '='

def reservedWords : List String :=
  ["case", "coproc", "do", "done", "elif", "else", "esac", "fi", "for",
    "function", "if", "in", "select", "then", "time", "until", "while"]

/-- A first word that names no command. -/
def isSyntax (word : List Char) : Bool :=
  isAssignment word || reservedWords.contains (String.ofList word)

/-- The line up to its first blank. -/
def firstText (line : List Char) : List Char :=
  line.takeWhile fun char => !isBlank char

/-- The words of a line that is one command. -/
def readCommand (line : List Char) : Option (List (List Char)) :=
  if isSyntax (firstText line) then none else readWords line

/-! ## Writing a word -/

/-- Characters that stand for themselves. -/
def IsPlain (char : Char) : Prop :=
  isBlank char = false ∧ char ≠ '\'' ∧ char ≠ '\\' ∧ isSpecial char = false

/-- A word between quotes. -/
def quoted (word : List Char) : List Char :=
  '\'' :: (word.flatMap fun char =>
    if char = '\'' then ['\'', '\\', '\'', '\''] else [char]) ++ ['\'']

/-- A text that a shell reads as the word. -/
def Spells (text word : List Char) : Prop :=
  (text = word ∧ word ≠ [] ∧ ∀ char ∈ word, IsPlain char) ∨ text = quoted word

section

variable {text word rest : List Char}

theorem readFrom_plain
    (plain : ∀ char ∈ text, IsPlain char) (begun : List Char) :
    readFrom .bare (some begun) (text ++ rest) =
      readFrom .bare (some (begun ++ text)) rest := by
  induction text generalizing begun with
  | nil => rw [List.nil_append, List.append_nil]
  | cons char text induction =>
      rcases plain char List.mem_cons_self with
        ⟨blank, quote, backslash, special⟩
      rw [List.cons_append, readFrom, if_neg (ne_true_of_eq_false blank),
        if_neg quote, if_neg backslash, if_neg (ne_true_of_eq_false special),
        extend, Option.getD_some,
        induction fun char member =>
          plain char (List.mem_cons_of_mem _ member)]
      rw [List.append_assoc, List.singleton_append]

/-- Between quotes, up to the quote that closes the word. -/
theorem readFrom_single (begun : List Char) :
    readFrom .single (some begun)
        ((word.flatMap fun char =>
          if char = '\'' then ['\'', '\\', '\'', '\''] else [char]) ++
            '\'' :: rest) =
      readFrom .bare (some (begun ++ word)) rest := by
  induction word generalizing begun with
  | nil =>
      rw [List.flatMap_nil, List.nil_append, readFrom, if_pos rfl,
        List.append_nil]
  | cons char word induction =>
      rw [List.flatMap_cons, List.append_assoc]
      have next :
          readFrom .single (some (begun ++ [char]))
              ((word.flatMap fun char =>
                if char = '\'' then ['\'', '\\', '\'', '\''] else [char]) ++
                  '\'' :: rest) =
            readFrom .bare (some (begun ++ char :: word)) rest := by
        rw [induction, List.append_assoc, List.singleton_append]
      by_cases quote : char = '\''
      · -- the quotes are closed, a quote is escaped, and they are opened again
        cases quote
        rw [if_pos rfl, ← next]
        rfl
      · rw [if_neg quote, List.singleton_append, readFrom, if_neg quote,
          extend, Option.getD_some, next]

theorem readFrom_spells (spells : Spells text word) :
    readFrom .bare none (text ++ rest) =
      readFrom .bare (some word) rest := by
  rcases spells with ⟨rfl, nonempty, plain⟩ | rfl
  · rcases List.exists_cons_of_ne_nil nonempty with ⟨char, chars, rfl⟩
    rcases plain char List.mem_cons_self with
      ⟨blank, quote, backslash, special⟩
    rw [List.cons_append, readFrom, if_neg (ne_true_of_eq_false blank),
      if_neg quote, if_neg backslash, if_neg (ne_true_of_eq_false special),
      extend, Option.getD_none,
      readFrom_plain fun char member =>
        plain char (List.mem_cons_of_mem _ member)]
    rfl
  · rw [quoted, List.cons_append, List.cons_append, List.append_assoc, readFrom,
      if_neg (by decide), if_pos rfl, Option.getD_none]
    exact readFrom_single []

/-- What is written of words, with blanks between them, is read as the words. -/
theorem readWords_intercalate
    {write : List Char → List Char} {words : List (List Char)}
    (spells : ∀ word ∈ words, Spells (write word) word) :
    readWords ([' '].intercalate (words.map write)) = some words := by
  induction words with
  | nil => rfl
  | cons word words induction =>
      have first := spells word List.mem_cons_self
      have read := induction fun other member =>
        spells other (List.mem_cons_of_mem _ member)
      cases words with
      | nil =>
          have alone :
              readFrom .bare none (write word ++ []) =
                readFrom .bare (some word) [] :=
            readFrom_spells first
          rw [List.append_nil] at alone
          rw [List.map_cons, List.map_nil, List.intercalate_singleton,
            readWords, alone]
          rfl
      | cons second words =>
          rw [List.map_cons, List.map_cons, List.intercalate_cons_cons,
            readWords, List.append_assoc, readFrom_spells first,
            List.singleton_append, readFrom, if_pos (by decide)]
          rw [List.map_cons, readWords] at read
          rw [read]
          rfl

/-! ## The first word of a line -/

theorem firstText_append_blank
    (unbroken : ∀ char ∈ text, isBlank char = false) :
    firstText (text ++ ' ' :: rest) = text := by
  rw [firstText, List.takeWhile_append_of_pos fun char member => by
      rw [unbroken char member]
      rfl,
    List.takeWhile_cons_of_neg (by decide), List.append_nil]

theorem firstText_eq_self
    (unbroken : ∀ char ∈ text, isBlank char = false) :
    firstText text = text :=
  List.takeWhile_eq_self_iff.2 fun char member => by
    rw [unbroken char member]
    rfl

/-- Behind a quote, the first word is neither reserved nor an assignment. -/
theorem isSyntax_quote :
    isSyntax (firstText ('\'' :: text)) = false := by
  rw [firstText, List.takeWhile_cons_of_pos (by decide), isSyntax,
    Bool.or_eq_false_iff]
  constructor
  · rfl
  · rw [List.contains_eq_mem, decide_eq_false_iff_not]
    intro member
    have letters :
        ∀ reserved ∈ reservedWords, reserved.toList.head? ≠ some '\'' := by
      decide
    exact letters _ member (by rw [String.toList_ofList]; rfl)

end

end Confos.Library.ShellWords
