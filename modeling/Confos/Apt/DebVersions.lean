import Confos.Library.Comparisons
import Confos.Library.Numerals
import Confos.Library.Text

/-!
# The order of package versions

The order that deb-version(7) lays down.  A version is an epoch, an upstream
version and a revision.  The last two are alternating runs of other characters
and of digits: the former are compared character by character, where a tilde
stands before the end of a run, the end before letters and letters before all
else, and the latter are compared as numbers.
-/

namespace Confos.Apt.DebVersions

open Std
open Confos.Library.Comparisons
open Confos.Library.Numerals
open Confos.Library.Text

/-! ## Runs of other characters -/

/-- Where a character stands, or the end of a run. -/
def place : Option Char → Nat × Nat
  | none => (1, 0)
  | some char =>
      if char = '~' then
        (0, 0)
      else if char.isAlpha then
        (2, char.toNat)
      else
        (3, char.toNat)

def comparePlace : Option Char → Option Char → Ordering :=
  compareLex (compareOn fun char => (place char).1)
    (compareOn fun char => (place char).2)

def compareRun (left right : List Char) : Ordering :=
  comparePadded comparePlace none (left.map some) (right.map some)

/-! ## Parts -/

/-- A run of other characters and the digits behind it. -/
structure Chunk where
  run : List Char
  digits : List Char
deriving DecidableEq, Repr

def emptyChunk : Chunk := { run := [], digits := [] }

/-- A character in front of the runs of a part. -/
def addChar (char : Char) : List Chunk → List Chunk
  | [] =>
      if char.isDigit then
        [{ run := [], digits := [char] }]
      else
        [{ run := [char], digits := [] }]
  | chunk :: chunks =>
      if !char.isDigit then
        { chunk with run := char :: chunk.run } :: chunks
      else if chunk.run = [] then
        { chunk with digits := char :: chunk.digits } :: chunks
      else
        { run := [], digits := [char] } :: chunk :: chunks

/-- The alternating runs of a part. -/
def chunks (part : List Char) : List Chunk :=
  part.foldr addChar []

def compareChunk : Chunk → Chunk → Ordering :=
  compareLex (fun left right => compareRun left.run right.run)
    (compareOn fun chunk => decimalValue chunk.digits)

/-- A run that a part lacks is empty, and no digits stand for zero. -/
def comparePart (left right : List Char) : Ordering :=
  comparePadded compareChunk emptyChunk (chunks left) (chunks right)

/-! ## Versions -/

structure DebVersion where
  epoch : Nat
  upstream : List Char
  revision : List Char
deriving DecidableEq, Repr

def splitRevision (epoch : Nat) (rest : List Char) : DebVersion :=
  match splitLast '-' rest with
  | some (upstream, revision) => { epoch, upstream, revision }
  | none => { epoch, upstream := rest, revision := ['0'] }

def parse (version : List Char) : DebVersion :=
  match splitOnce ':' version with
  | some (epoch, rest) => splitRevision (decimalValue epoch) rest
  | none => splitRevision 0 version

def compareParsed : DebVersion → DebVersion → Ordering :=
  compareLex (compareOn DebVersion.epoch)
    (compareLex (fun left right => comparePart left.upstream right.upstream)
      fun left right => comparePart left.revision right.revision)

def compareVersion (left right : List Char) : Ordering :=
  compareParsed (parse left) (parse right)

/-! ## A total preorder -/

instance : TransCmp comparePlace :=
  inferInstanceAs (TransCmp (compareLex _ _))

instance : TransCmp compareRun :=
  transCmp_comap (List.map some)

instance : TransCmp fun left right : Chunk => compareRun left.run right.run :=
  transCmp_comap Chunk.run

instance : TransCmp compareChunk :=
  inferInstanceAs (TransCmp (compareLex _ _))

instance : TransCmp comparePart :=
  transCmp_comap chunks

instance : TransCmp fun left right : DebVersion =>
    comparePart left.upstream right.upstream :=
  transCmp_comap DebVersion.upstream

instance : TransCmp fun left right : DebVersion =>
    comparePart left.revision right.revision :=
  transCmp_comap DebVersion.revision

instance : TransCmp compareParsed :=
  inferInstanceAs (TransCmp (compareLex _ _))

instance : TransCmp compareVersion :=
  transCmp_comap parse

/-! ## The first runs of a part -/

def isOther (char : Char) : Bool :=
  !char.isDigit

def firstChunk (part : List Char) : Chunk where
  run := part.takeWhile isOther
  digits := (part.dropWhile isOther).takeWhile Char.isDigit

def behindChunk (part : List Char) : List Char :=
  (part.dropWhile isOther).dropWhile Char.isDigit

section

variable {char : Char} {part : List Char}

theorem firstChunk_of_other (other : char.isDigit = false) :
    firstChunk (char :: part) =
        { firstChunk part with run := char :: (firstChunk part).run } ∧
      behindChunk (char :: part) = behindChunk part := by
  have isOther : isOther char = true := by rw [isOther, other]; rfl
  rw [firstChunk, firstChunk, behindChunk, behindChunk,
    List.takeWhile_cons_of_pos isOther, List.dropWhile_cons_of_pos isOther]
  exact ⟨rfl, rfl⟩

theorem firstChunk_of_digit (digit : char.isDigit = true) :
    firstChunk (char :: part) =
        { run := [], digits := char :: part.takeWhile Char.isDigit } ∧
      behindChunk (char :: part) = part.dropWhile Char.isDigit := by
  have notOther : ¬ isOther char = true := by rw [isOther, digit]; simp
  rw [firstChunk, behindChunk, List.takeWhile_cons_of_neg notOther,
    List.dropWhile_cons_of_neg notOther, List.takeWhile_cons_of_pos digit,
    List.dropWhile_cons_of_pos digit]
  exact ⟨rfl, rfl⟩

/-- The runs of a part are its first ones and those of what is behind them. -/
theorem chunks_of_ne_nil (nonempty : part ≠ []) :
    chunks part = firstChunk part :: chunks (behindChunk part) := by
  induction part with
  | nil => exact absurd rfl nonempty
  | cons char part induction =>
      have step : chunks (char :: part) = addChar char (chunks part) := rfl
      rw [step]
      cases digit : char.isDigit with
      | false =>
          rcases @firstChunk_of_other char part digit with ⟨first, behind⟩
          rw [first, behind]
          cases part with
          | nil =>
              have alone : addChar char (chunks []) = [⟨[char], []⟩] := by
                rw [chunks, List.foldr_nil, addChar, digit]
                rfl
              exact alone
          | cons next part =>
              rw [induction (List.cons_ne_nil next part), addChar, digit]
              rfl
      | true =>
          rcases @firstChunk_of_digit char part digit with ⟨first, behind⟩
          rw [first, behind]
          cases part with
          | nil =>
              have alone : addChar char (chunks []) = [⟨[], [char]⟩] := by
                rw [chunks, List.foldr_nil, addChar, digit]
                rfl
              exact alone
          | cons next part =>
              have rest := induction (List.cons_ne_nil next part)
              cases nextDigit : next.isDigit with
              | true =>
                  rcases @firstChunk_of_digit next part nextDigit with
                    ⟨nextFirst, nextBehind⟩
                  rw [rest, nextFirst, nextBehind, addChar, digit,
                    List.takeWhile_cons_of_pos nextDigit,
                    List.dropWhile_cons_of_pos nextDigit]
                  rfl
              | false =>
                  rcases @firstChunk_of_other next part nextDigit with
                    ⟨nextFirst, -⟩
                  have notDigit : ¬ next.isDigit = true := by
                    rw [nextDigit]
                    exact Bool.false_ne_true
                  rw [List.takeWhile_cons_of_neg notDigit,
                    List.dropWhile_cons_of_neg notDigit, rest, nextFirst,
                    addChar, digit]
                  rfl

theorem behindChunk_suffix (part : List Char) : behindChunk part <:+ part :=
  (List.dropWhile_suffix _).trans (List.dropWhile_suffix _)

theorem isInfix_firstChunk_digits (part : List Char) :
    (firstChunk part).digits <:+: part :=
  (List.takeWhile_prefix _).isInfix.trans (List.dropWhile_suffix _).isInfix

/-- A part with characters has first runs with characters. -/
theorem length_behindChunk (nonempty : part ≠ []) :
    (behindChunk part).length < part.length := by
  cases part with
  | nil => exact absurd rfl nonempty
  | cons char part =>
      rw [List.length_cons, Nat.lt_succ_iff]
      cases digit : char.isDigit with
      | false =>
          rw [(@firstChunk_of_other char part digit).2]
          exact (behindChunk_suffix part).length_le
      | true =>
          rw [(@firstChunk_of_digit char part digit).2]
          exact (List.dropWhile_suffix _).length_le

/-- Parts are compared by their first runs, and then by the rest of them. -/
theorem comparePart_step
    {left right : List Char} (nonempty : left ≠ [] ∨ right ≠ []) :
    comparePart left right =
      (compareChunk (firstChunk left) (firstChunk right)).then
        (comparePart (behindChunk left) (behindChunk right)) := by
  cases left with
  | nil =>
      cases right with
      | nil => exact absurd rfl (nonempty.elim id id)
      | cons char right =>
          rw [comparePart, chunks_of_ne_nil (List.cons_ne_nil char right)]
          rfl
  | cons char left =>
      cases right with
      | nil =>
          rw [comparePart, chunks_of_ne_nil (List.cons_ne_nil char left)]
          rfl
      | cons other right =>
          rw [comparePart, chunks_of_ne_nil (List.cons_ne_nil char left),
            chunks_of_ne_nil (List.cons_ne_nil other right)]
          rfl

end

end Confos.Apt.DebVersions
