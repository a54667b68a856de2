import Mathlib.Data.List.Basic

/-!
# Slots held by threads

A counting semaphore hands out a number of slots to threads.  Where every turn
of a thread takes and gives back as many slots as it then holds more or less,
the free slots and the held ones add up to the same number in every state, so
no slot is lost and none is given back twice.
-/

namespace Confos.Library.Semaphores

universe u

variable {Thread : Type u} {holds : Thread → Bool}
variable {limit free later : Nat} {threads : List Thread}
variable {before after : Thread} {index : Nat}

/-- The number of slots a thread has. -/
def held (holds : Thread → Bool) (thread : Thread) : Nat :=
  if holds thread then 1 else 0

/-- The free slots and the held ones are all there are. -/
def Balanced
    (holds : Thread → Bool) (limit free : Nat) (threads : List Thread) : Prop :=
  free + threads.countP holds = limit

theorem balanced_nil (limit : Nat) :
    Balanced holds limit limit ([] : List Thread) :=
  rfl

/-- A thread that comes in takes its slot from the free ones. -/
theorem Balanced.concat
    (balanced : Balanced holds limit free threads)
    (taken : later + held holds after = free) :
    Balanced holds limit later (threads ++ [after]) := by
  rw [Balanced, List.countP_append, List.countP_singleton]
  rw [Balanced] at balanced
  rw [held] at taken
  omega

/-- A turn of a thread keeps the sum of the free slots and its own. -/
theorem Balanced.set
    (balanced : Balanced holds limit free threads)
    (found : threads[index]? = some before)
    (turned : later + held holds after = free + held holds before) :
    Balanced holds limit later (threads.set index after) := by
  rcases List.getElem?_eq_some_iff.1 found with ⟨inside, rfl⟩
  have counted :
      held holds threads[index] ≤ threads.countP holds :=
    List.boole_getElem_le_countP inside
  rw [Balanced, List.countP_set inside]
  rw [Balanced] at balanced
  rw [held, held] at turned
  rw [held] at counted
  omega

/-- Where no thread has a slot, all are free. -/
theorem Balanced.free_eq
    (balanced : Balanced holds limit free threads)
    (none : ∀ thread ∈ threads, holds thread = false) : free = limit := by
  have zero : threads.countP holds = 0 :=
    List.countP_eq_zero.2 fun thread member => by
      rw [none thread member]
      exact Bool.false_ne_true
  rw [Balanced, zero] at balanced
  exact balanced

end Confos.Library.Semaphores
