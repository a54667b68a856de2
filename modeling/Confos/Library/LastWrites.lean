import Mathlib.Data.List.Basic
import Mathlib.Data.List.Induction

/-!
# The last write to a cell

A program is a list of operations, each of which is about one cell.  While it
runs, the cell of its next operation may hold anything; every other cell shows
the last operation that was about it, if nobody else writes there.
-/

namespace Confos.Library.LastWrites

variable {Op Cell Value : Type} [DecidableEq Cell]
  (cellOf : Op → Cell) (shows : Op → Value → Prop)

/-- The last operation about a cell. -/
def lastAt (program : List Op) (cell : Cell) : Option Op :=
  program.reverse.find? fun op => cellOf op = cell

/--
What a program did shows that has these operations left, but for the cell of
the first of them.
-/
def Settled (program todo : List Op) (cells : Cell → Value) : Prop :=
  ∃ done, program = done ++ todo ∧
    ∀ cell op, lastAt cellOf done cell = some op →
      (∀ next ∈ todo.head?, cellOf next ≠ cell) → shows op (cells cell)

section

variable {cellOf} {shows} {program todo : List Op} {next : Op}
  {cells after : Cell → Value}

theorem lastAt_concat (cell : Cell) :
    lastAt cellOf (program ++ [next]) cell =
      if cellOf next = cell then some next else lastAt cellOf program cell := by
  rw [lastAt, List.reverse_concat, List.find?_cons]
  by_cases here : cellOf next = cell
  · rw [if_pos here]
    simp [here]
  · rw [if_neg here]
    simp [here, lastAt]

theorem of_lastAt_eq_some
    {cell : Cell} {op : Op} (last : lastAt cellOf program cell = some op) :
    op ∈ program ∧ cellOf op = cell := by
  constructor
  · exact List.mem_reverse.1 (List.mem_of_find?_eq_some last)
  · have here := List.find?_some last
    exact of_decide_eq_true here

theorem settled_start (cells : Cell → Value) :
    Settled cellOf shows program program cells := by
  refine ⟨[], rfl, ?_⟩
  intro cell op impossible
  cases impossible

/-- The next operation is done. -/
theorem Settled.advance
    (settled : Settled cellOf shows program (next :: todo) cells)
    (others : ∀ cell, cellOf next ≠ cell → after cell = cells cell)
    (written : shows next (after (cellOf next))) :
    Settled cellOf shows program todo after := by
  rcases settled with ⟨done, whole, settled⟩
  refine ⟨done ++ [next], by rw [whole, List.append_cons], ?_⟩
  intro cell op last _
  rw [lastAt_concat] at last
  split at last
  · next here =>
      cases last
      cases here
      exact written
  · next elsewhere =>
      rw [others cell elsewhere]
      refine settled cell op last ?_
      rintro _ ⟨⟩
      exact elsewhere

/-- The next operation is begun, or fails on its way. -/
theorem Settled.attempt
    (settled : Settled cellOf shows program (next :: todo) cells)
    (others : ∀ cell, cellOf next ≠ cell → after cell = cells cell) :
    Settled cellOf shows program (next :: todo) after := by
  rcases settled with ⟨done, whole, settled⟩
  refine ⟨done, whole, ?_⟩
  intro cell op last apart
  rw [others cell (apart next rfl)]
  exact settled cell op last apart

/-- Somebody writes what is as good. -/
theorem Settled.interfere
    (settled : Settled cellOf shows program todo cells)
    (stays :
      ∀ cell op, op ∈ program → cellOf op = cell → shows op (cells cell) →
        shows op (after cell)) :
    Settled cellOf shows program todo after := by
  rcases settled with ⟨done, whole, settled⟩
  refine ⟨done, whole, ?_⟩
  intro cell op last apart
  rcases of_lastAt_eq_some last with ⟨member, here⟩
  refine stays cell op ?_ here (settled cell op last apart)
  rw [whole]
  exact List.mem_append_left _ member

theorem Settled.finished
    (settled : Settled cellOf shows program [] cells)
    {cell : Cell} {op : Op} (last : lastAt cellOf program cell = some op) :
    shows op (cells cell) := by
  rcases settled with ⟨done, whole, settled⟩
  rw [whole, List.append_nil] at last
  exact settled cell op last nofun

theorem Settled.mem_program
    (settled : Settled cellOf shows program (next :: todo) cells) :
    next ∈ program := by
  rcases settled with ⟨done, whole, -⟩
  rw [whole]
  exact List.mem_append_right _ List.mem_cons_self

end

end Confos.Library.LastWrites
