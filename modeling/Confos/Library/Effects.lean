import Mathlib.Data.List.Induction

/-!
# Programs that keep their world when they fail

A program changes a world and returns a value, or fails with a message; what
it changed before it failed stays changed.  This module holds what a
successful program did step by step, the invariant rule of its loops, and the
rules for programs that may fail anywhere: an invariant that every step keeps,
and a part of the world that no step touches.
-/

namespace Confos.Library.Effects

variable {Problem World Part α β : Type}

/-- The world a program leaves behind, failed or not. -/
def worldAfter : EStateM.Result Problem World α → World
  | .ok _ after => after
  | .error _ after => after

/-! ## What a successful program did -/

theorem bind_eq_ok
    {first : EStateM Problem World α} {second : α → EStateM Problem World β}
    {world after : World} {result : β} :
    (first >>= second) world = .ok result after ↔
      ∃ value middle,
        first world = .ok value middle ∧
          second value middle = .ok result after := by
  change EStateM.bind first second world = .ok result after ↔ _
  rw [EStateM.bind]
  cases first world with
  | error problem left =>
      constructor
      · intro impossible
        cases impossible
      · rintro ⟨value, middle, impossible, -⟩
        cases impossible
  | ok value middle =>
      constructor
      · intro continued
        exact ⟨value, middle, rfl, continued⟩
      · rintro ⟨other, otherMiddle, same, continued⟩
        cases same
        exact continued

theorem bind_of_ok
    {first : EStateM Problem World α} {second : α → EStateM Problem World β}
    {world middle : World} {value : α} (ran : first world = .ok value middle) :
    (first >>= second) world = second value middle := by
  change EStateM.bind first second world = _
  rw [EStateM.bind, ran]

theorem bind_of_error
    {first : EStateM Problem World α} {second : α → EStateM Problem World β}
    {world left : World} {problem : Problem}
    (ran : first world = .error problem left) :
    (first >>= second) world = .error problem left := by
  change EStateM.bind first second world = _
  rw [EStateM.bind, ran]

theorem get_eq_ok {world : World} :
    (get : EStateM Problem World World) world = .ok world world :=
  rfl

/-- A loop runs its first step and goes on. -/
theorem forM_cons
    (step : α → EStateM Problem World PUnit) (item : α) (items : List α)
    (world : World) :
    (item :: items).forM step world =
      (step item >>= fun _ => items.forM step) world :=
  rfl

theorem pure_eq_ok {value result : α} {world after : World} :
    (pure value : EStateM Problem World α) world = .ok result after ↔
      value = result ∧ world = after := by
  constructor
  · intro equal
    cases equal
    exact ⟨rfl, rfl⟩
  · rintro ⟨rfl, rfl⟩
    rfl

theorem throw_ne_ok {problem : Problem} {result : α} {world after : World} :
    (throw problem : EStateM Problem World α) world ≠ .ok result after := by
  intro impossible
  cases impossible

/-- A guard that fails with a message passed. -/
theorem guard_eq_ok
    {condition : Prop} [Decidable condition] {problem : Problem}
    {rest : EStateM Problem World α} {world after : World} {result : α} :
    (if condition then throw problem else rest) world = .ok result after ↔
      ¬ condition ∧ rest world = .ok result after := by
  by_cases holds : condition
  · rw [if_pos holds]
    constructor
    · intro impossible
      exact (throw_ne_ok impossible).elim
    · rintro ⟨fails, -⟩
      exact (fails holds).elim
  · rw [if_neg holds]
    exact ⟨fun ran => ⟨holds, ran⟩, fun ran => ran.2⟩

/-- Fail with a message unless a condition holds. -/
def ensure (condition : Prop) [Decidable condition] (problem : Problem) :
    EStateM Problem World Unit :=
  if condition then pure () else throw problem

theorem ensure_eq_ok
    {condition : Prop} [Decidable condition] {problem : Problem}
    {world after : World} {result : Unit} :
    (ensure condition problem : EStateM Problem World Unit) world =
        .ok result after ↔
      condition ∧ world = after := by
  rw [ensure]
  by_cases holds : condition
  · rw [if_pos holds, pure_eq_ok]
    simp [holds]
  · rw [if_neg holds]
    constructor
    · intro impossible
      exact (throw_ne_ok impossible).elim
    · rintro ⟨also, -⟩
      exact (holds also).elim

/-- Whether a run succeeds. -/
def succeeds : EStateM.Result Problem World α → Bool
  | .ok _ _ => true
  | .error _ _ => false

theorem exists_eq_ok_of_succeeds
    {result : EStateM.Result Problem World α}
    (done : succeeds result = true) :
    ∃ value after, result = .ok value after := by
  cases result with
  | ok value after => exact ⟨value, after, rfl⟩
  | error problem after => cases done

/-- A computation without a world succeeds where it does. -/
theorem ofExcept_eq_ok
    {computed : Except Problem α} {world after : World} {result : α} :
    (MonadExcept.ofExcept computed : EStateM Problem World α) world =
        .ok result after ↔
      computed = .ok result ∧ world = after := by
  cases computed with
  | error problem =>
      constructor
      · intro impossible
        cases impossible
      · rintro ⟨impossible, -⟩
        cases impossible
  | ok value =>
      constructor
      · intro equal
        cases equal
        exact ⟨rfl, rfl⟩
      · rintro ⟨same, rfl⟩
        cases same
        rfl

/-- A caught program ended well, or its handler did where it had failed. -/
theorem tryCatch_eq_ok
    {program : EStateM Problem World α}
    {handler : Problem → EStateM Problem World α}
    {world after : World} {result : α} :
    (tryCatch program handler) world = .ok result after ↔
      program world = .ok result after ∨
        ∃ problem failed,
          program world = .error problem failed ∧
            handler problem failed = .ok result after := by
  change EStateM.tryCatch program handler world = .ok result after ↔ _
  rw [EStateM.tryCatch]
  cases program world with
  | ok value middle =>
      constructor
      · intro same
        exact Or.inl same
      · rintro (same | ⟨problem, failed, impossible, -⟩)
        · exact same
        · cases impossible
  | error problem middle =>
      constructor
      · intro handled
        exact Or.inr ⟨problem, middle, rfl, handled⟩
      · rintro (impossible | ⟨other, failed, same, handled⟩)
        · cases impossible
        · cases same
          exact handled

/-- What holds of the consumed part and the value at first holds at the end. -/
theorem foldlM_invariant
    {step : β → α → EStateM Problem World β}
    (Invariant : List α → β → Prop)
    {start finish : β} {items : List α} {world after : World}
    (initial : Invariant [] start)
    (preserved :
      ∀ consumed item before next here there,
        Invariant consumed before →
          step before item here = .ok next there →
            Invariant (consumed ++ [item]) next)
    (ran : items.foldlM step start world = .ok finish after) :
    Invariant items finish := by
  induction items using List.reverseRecOn generalizing finish after with
  | nil =>
      rcases pure_eq_ok.1 ran with ⟨rfl, -⟩
      exact initial
  | append_singleton items item induction =>
      rw [List.foldlM_append] at ran
      rcases bind_eq_ok.1 ran with ⟨before, here, earlier, last⟩
      rw [List.foldlM_cons] at last
      rcases bind_eq_ok.1 last with ⟨next, there, stepped, stopped⟩
      rcases pure_eq_ok.1 stopped with ⟨rfl, rfl⟩
      exact preserved items item before next here there
        (induction earlier) stepped

/-- A sequence ends in the failure of its first program or in its second. -/
theorem worldAfter_bind
    {first : EStateM Problem World α} {second : α → EStateM Problem World β}
    {world : World} {Holds : World → Prop}
    (failed :
      ∀ problem left, first world = .error problem left → Holds left)
    (continued :
      ∀ value middle,
        first world = .ok value middle →
          Holds (worldAfter (second value middle))) :
    Holds (worldAfter ((first >>= second) world)) := by
  change Holds (worldAfter (EStateM.bind first second world))
  rw [EStateM.bind]
  cases ran : first world with
  | error problem left => exact failed problem left ran
  | ok value middle => exact continued value middle ran

/-- A program keeps an invariant of its world, failed or not. -/
def Preserves (Invariant : World → Prop) (program : EStateM Problem World α) :
    Prop :=
  ∀ world, Invariant world → Invariant (worldAfter (program world))

section

variable {Invariant : World → Prop}

theorem Preserves.of_ok
    {program : EStateM Problem World α} (keeps : Preserves Invariant program)
    {world after : World} {value : α}
    (ran : program world = .ok value after) (holds : Invariant world) :
    Invariant after := by
  have kept := keeps world holds
  rw [ran] at kept
  exact kept

theorem Preserves.of_error
    {program : EStateM Problem World α} (keeps : Preserves Invariant program)
    {world after : World} {problem : Problem}
    (ran : program world = .error problem after) (holds : Invariant world) :
    Invariant after := by
  have kept := keeps world holds
  rw [ran] at kept
  exact kept

theorem preserves_pure (value : α) :
    Preserves Invariant (pure value : EStateM Problem World α) :=
  fun _ holds => holds

theorem preserves_throw (problem : Problem) :
    Preserves Invariant (throw problem : EStateM Problem World α) :=
  fun _ holds => holds

theorem preserves_get :
    Preserves Invariant (get : EStateM Problem World World) :=
  fun _ holds => holds

theorem preserves_modify
    {change : World → World}
    (keeps : ∀ world, Invariant world → Invariant (change world)) :
    Preserves Invariant (modify change : EStateM Problem World PUnit) :=
  keeps

/-- The second program may rely on what the first one did. -/
theorem preserves_bind_of_ok
    {first : EStateM Problem World α} {second : α → EStateM Problem World β}
    (firstKeeps : Preserves Invariant first)
    (secondKeeps :
      ∀ before value middle,
        Invariant before → first before = .ok value middle →
          Invariant middle → Invariant (worldAfter (second value middle))) :
    Preserves Invariant (first >>= second) := by
  intro world holds
  apply worldAfter_bind
  · intro problem left ran
    exact firstKeeps.of_error ran holds
  · intro value next ran
    exact
      secondKeeps world value next holds ran (firstKeeps.of_ok ran holds)

theorem preserves_bind
    {first : EStateM Problem World α} {second : α → EStateM Problem World β}
    (firstKeeps : Preserves Invariant first)
    (secondKeeps : ∀ value, Preserves Invariant (second value)) :
    Preserves Invariant (first >>= second) :=
  preserves_bind_of_ok firstKeeps fun _ value middle _ _ holds =>
    secondKeeps value middle holds

theorem preserves_ite
    {condition : Prop} [Decidable condition]
    {left right : EStateM Problem World α}
    (leftKeeps : Preserves Invariant left)
    (rightKeeps : Preserves Invariant right) :
    Preserves Invariant (if condition then left else right) := by
  split
  · exact leftKeeps
  · exact rightKeeps

theorem preserves_ensure
    (condition : Prop) [Decidable condition] (problem : Problem) :
    Preserves Invariant
      (ensure condition problem : EStateM Problem World Unit) :=
  preserves_ite (preserves_pure ()) (preserves_throw problem)

theorem preserves_ofExcept (computed : Except Problem α) :
    Preserves Invariant
      (MonadExcept.ofExcept computed : EStateM Problem World α) := by
  cases computed with
  | error problem => exact preserves_throw problem
  | ok value => exact preserves_pure value

theorem preserves_tryCatch
    {program : EStateM Problem World α}
    {handler : Problem → EStateM Problem World α}
    (programKeeps : Preserves Invariant program)
    (handlerKeeps : ∀ problem, Preserves Invariant (handler problem)) :
    Preserves Invariant (tryCatch program handler) := by
  intro world holds
  have middle := programKeeps world holds
  change Invariant (worldAfter (EStateM.tryCatch program handler world))
  rw [EStateM.tryCatch]
  cases ran : program world with
  | ok value next =>
      rw [ran] at middle
      exact middle
  | error problem left =>
      rw [ran] at middle
      exact handlerKeeps problem left middle

theorem preserves_foldlM
    {step : β → α → EStateM Problem World β}
    (stepKeeps : ∀ value item, Preserves Invariant (step value item))
    (items : List α) (start : β) :
    Preserves Invariant (items.foldlM step start) := by
  induction items generalizing start with
  | nil => exact preserves_pure start
  | cons item items induction =>
      rw [List.foldlM_cons]
      exact preserves_bind (stepKeeps start item) fun next => induction next

end

/-! ## The frame rule -/

/-- A program leaves a part of its world alone. -/
def Leaves (part : World → Part) (program : EStateM Problem World α) : Prop :=
  ∀ seen, Preserves (fun world => part world = seen) program

section

variable {part : World → Part}

theorem Leaves.part_eq
    {program : EStateM Problem World α} (leaves : Leaves part program)
    (world : World) : part (worldAfter (program world)) = part world :=
  leaves (part world) world rfl

theorem leaves_pure (value : α) :
    Leaves part (pure value : EStateM Problem World α) :=
  fun _ => preserves_pure value

theorem leaves_throw (problem : Problem) :
    Leaves part (throw problem : EStateM Problem World α) :=
  fun _ => preserves_throw problem

theorem leaves_get : Leaves part (get : EStateM Problem World World) :=
  fun _ => preserves_get

theorem leaves_modify
    {change : World → World}
    (leaves : ∀ world, part (change world) = part world) :
    Leaves part (modify change : EStateM Problem World PUnit) :=
  fun _ => preserves_modify fun world same => (leaves world).trans same

theorem leaves_bind
    {first : EStateM Problem World α} {second : α → EStateM Problem World β}
    (firstLeaves : Leaves part first)
    (secondLeaves : ∀ value, Leaves part (second value)) :
    Leaves part (first >>= second) :=
  fun seen =>
    preserves_bind (firstLeaves seen) fun value => secondLeaves value seen

theorem leaves_ite
    {condition : Prop} [Decidable condition]
    {left right : EStateM Problem World α}
    (leftLeaves : Leaves part left) (rightLeaves : Leaves part right) :
    Leaves part (if condition then left else right) :=
  fun seen => preserves_ite (leftLeaves seen) (rightLeaves seen)

theorem leaves_ensure
    (condition : Prop) [Decidable condition] (problem : Problem) :
    Leaves part (ensure condition problem : EStateM Problem World Unit) :=
  fun _ => preserves_ensure condition problem

theorem leaves_tryCatch
    {program : EStateM Problem World α}
    {handler : Problem → EStateM Problem World α}
    (programLeaves : Leaves part program)
    (handlerLeaves : ∀ problem, Leaves part (handler problem)) :
    Leaves part (tryCatch program handler) :=
  fun seen =>
    preserves_tryCatch (programLeaves seen)
      fun problem => handlerLeaves problem seen

theorem leaves_foldlM
    {step : β → α → EStateM Problem World β}
    (stepLeaves : ∀ value item, Leaves part (step value item))
    (items : List α) (start : β) :
    Leaves part (items.foldlM step start) :=
  fun seen =>
    preserves_foldlM (fun value item => stepLeaves value item seen) items
      start

end

end Confos.Library.Effects
