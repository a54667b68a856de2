import Mathlib.Data.List.Basic
import Mathlib.Logic.Function.Basic

/-!
# Registers extended by a log

A family of registers and a log whose entries each extend one of them, or none.
A register after the log depends only on the entries that name it, in order,
so a verifier can replay one register at a time.
-/

namespace Confos.Library.Registers

universe u v w

variable {Index : Type u} {Register : Type v} {Entry : Type w}

section

variable [DecidableEq Index]

variable
    (target : Entry → Option Index)
    (extend : Register → Entry → Register)

/-- One entry extends the register it names. -/
def extendRegister
    (registers : Index → Register) (entry : Entry) : Index → Register :=
  match target entry with
  | some index =>
      Function.update registers index (extend (registers index) entry)
  | none => registers

/-- The registers after a log. -/
def replay
    (start : Index → Register) (log : List Entry) : Index → Register :=
  log.foldl (extendRegister target extend) start

theorem extendRegister_of_target
    {registers : Index → Register} {entry : Entry} {index : Index}
    (named : target entry = some index) :
    extendRegister target extend registers entry index =
      extend (registers index) entry := by
  rw [extendRegister, named]
  exact Function.update_self index _ registers

/-- The frame rule: an entry leaves every other register alone. -/
theorem extendRegister_of_ne
    {registers : Index → Register} {entry : Entry} {index : Index}
    (other : target entry ≠ some index) :
    extendRegister target extend registers entry index =
      registers index := by
  rw [extendRegister]
  cases named : target entry with
  | none => rfl
  | some touched =>
      apply Function.update_of_ne
      intro equal
      apply other
      rw [named, equal]

theorem replay_append
    (start : Index → Register) (first second : List Entry) :
    replay target extend start (first ++ second) =
      replay target extend (replay target extend start first) second := by
  rw [replay, replay, replay, List.foldl_append]

theorem replay_concat
    (start : Index → Register) (log : List Entry) (entry : Entry) :
    replay target extend start (log ++ [entry]) =
      extendRegister target extend (replay target extend start log) entry := by
  rw [replay_append]
  rfl

/-- A register is the fold over the entries that name it. -/
theorem replay_apply
    (start : Index → Register) (log : List Entry) (index : Index) :
    replay target extend start log index =
      (log.filter fun entry => target entry = some index).foldl extend
        (start index) := by
  induction log generalizing start with
  | nil => rfl
  | cons entry log induction =>
      change
        replay target extend (extendRegister target extend start entry) log
            index =
          _
      rw [induction]
      by_cases named : target entry = some index
      · rw [extendRegister_of_target target extend named,
          List.filter_cons_of_pos (by simpa using named)]
        rfl
      · rw [extendRegister_of_ne target extend named,
          List.filter_cons_of_neg (by simpa using named)]

end

end Confos.Library.Registers
