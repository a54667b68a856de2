import Mathlib.Algebra.GroupWithZero.Nat
import Mathlib.Data.List.Induction
import Mathlib.Order.WellFounded

/-!
# Machines and their runs

A machine is a step function that refuses the actions its state does not
enable.  A run is a list of actions taken one after the other, so a statement
about every list of actions is one about every interleaving.  The invariant
rule reduces what holds after every run to what one step preserves.
-/

namespace Confos.Library.Machines

universe u v

variable {State : Type u} {Action : Type v}

/-- The state after a list of actions, if each is enabled in its turn. -/
def run
    (step : State → Action → Option State) (start : State)
    (actions : List Action) : Option State :=
  actions.foldlM step start

variable {step : State → Action → Option State} {start finish : State}

theorem run_concat_eq_some
    {actions : List Action} {action : Action} :
    run step start (actions ++ [action]) = some finish ↔
      ∃ middle, run step start actions = some middle ∧
        step middle action = some finish := by
  rw [run, List.foldlM_append]
  constructor
  · intro ran
    rcases Option.bind_eq_some_iff.1 ran with ⟨middle, earlier, last⟩
    refine ⟨middle, earlier, ?_⟩
    rcases Option.bind_eq_some_iff.1 last with ⟨final, stepped, stopped⟩
    cases stopped
    exact stepped
  · rintro ⟨middle, earlier, last⟩
    apply Option.bind_eq_some_iff.2
    refine ⟨middle, earlier, ?_⟩
    apply Option.bind_eq_some_iff.2
    exact ⟨finish, last, rfl⟩

/--
What holds at the start of the list of actions taken, and is kept by each step
of a run, holds after the run.
-/
theorem run_history_invariant
    (Invariant : List Action → State → Prop)
    (initial : Invariant [] start)
    (preserved :
      ∀ taken action before after,
        run step start taken = some before → Invariant taken before →
          step before action = some after →
            Invariant (taken ++ [action]) after)
    {actions : List Action}
    (ran : run step start actions = some finish) :
    Invariant actions finish := by
  induction actions using List.reverseRecOn generalizing finish with
  | nil =>
      cases ran
      exact initial
  | append_singleton actions action induction =>
      rcases run_concat_eq_some.1 ran with ⟨middle, earlier, last⟩
      exact
        preserved actions action middle finish earlier (induction earlier)
          last

/-- What holds at the start and is kept by every step holds after every run. -/
theorem run_invariant
    (Invariant : State → Prop)
    (initial : Invariant start)
    (preserved :
      ∀ before action after,
        Invariant before → step before action = some after →
          Invariant after)
    {actions : List Action}
    (ran : run step start actions = some finish) :
    Invariant finish :=
  run_history_invariant (fun _ => Invariant) initial
    (fun _ action before after _ holds stepped =>
      preserved before action after holds stepped)
    ran

/-! ## Guarded runs -/

/-- Every step of a run is taken in a state that a guard allows it in. -/
def Meets
    (step : State → Action → Option State) (guard : State → Action → Prop) :
    State → List Action → Prop
  | _, [] => True
  | start, action :: actions =>
      guard start action ∧
        ∀ next, step start action = some next →
          Meets step guard next actions

instance decidableMeets
    {guard : State → Action → Prop}
    [∀ state action, Decidable (guard state action)] :
    ∀ (start : State) (actions : List Action),
      Decidable (Meets step guard start actions)
  | _, [] => .isTrue trivial
  | start, action :: actions =>
      @instDecidableAnd _ _ _
        (@Option.decidableForallMem _ (Meets step guard · actions)
          (fun next => decidableMeets next actions) (step start action))

theorem Meets.and
    {guard other : State → Action → Prop} {actions : List Action}
    (meets : Meets step guard start actions)
    (also : Meets step other start actions) :
    Meets step (fun state action => guard state action ∧ other state action)
      start actions := by
  induction actions generalizing start with
  | nil => trivial
  | cons action actions induction =>
      exact
        ⟨⟨meets.1, also.1⟩, fun next stepped =>
          induction (meets.2 next stepped) (also.2 next stepped)⟩

/-- The invariant rule for runs whose steps a guard allows. -/
theorem run_invariant_of_meets
    {guard : State → Action → Prop} (Invariant : State → Prop)
    (initial : Invariant start)
    (preserved :
      ∀ before action after,
        Invariant before → guard before action →
          step before action = some after → Invariant after)
    {actions : List Action} (meets : Meets step guard start actions)
    (ran : run step start actions = some finish) :
    Invariant finish := by
  induction actions generalizing start with
  | nil =>
      cases ran
      exact initial
  | cons action actions induction =>
      rcases Option.bind_eq_some_iff.1 ran with ⟨middle, stepped, continued⟩
      exact
        induction (preserved start action middle initial meets.1 stepped)
          (meets.2 middle stepped) continued

/-! ## Reachability -/

/-- Some run of allowed actions leads from one state to another. -/
def Reaches
    (step : State → Action → Option State) (allowed : Action → Prop)
    (start finish : State) : Prop :=
  ∃ actions, (∀ action ∈ actions, allowed action) ∧
    run step start actions = some finish

section

variable {allowed : Action → Prop}

@[refl]
theorem Reaches.refl (start : State) : Reaches step allowed start start :=
  ⟨[], by simp, rfl⟩

theorem Reaches.of_step
    {action : Action} (permitted : allowed action)
    (stepped : step start action = some finish) :
    Reaches step allowed start finish := by
  refine ⟨[action], by simpa using permitted, ?_⟩
  rw [← List.nil_append [action], run_concat_eq_some]
  exact ⟨start, rfl, stepped⟩

theorem Reaches.trans
    {middle : State} (first : Reaches step allowed start middle)
    (second : Reaches step allowed middle finish) :
    Reaches step allowed start finish := by
  rcases first with ⟨before, beforeAllowed, toMiddle⟩
  rcases second with ⟨after, afterAllowed, fromMiddle⟩
  refine ⟨before ++ after, ?_, ?_⟩
  · intro action member
    rcases List.mem_append.1 member with earlier | later
    · exact beforeAllowed action earlier
    · exact afterAllowed action later
  · rw [run, List.foldlM_append]
    exact Option.bind_eq_some_iff.2 ⟨middle, toMiddle, fromMiddle⟩

/--
Where allowed actions always lead on, to the goal or to a state of lower rank,
they lead to the goal.
-/
theorem exists_reaches_of_rank
    {Rank : Type*} [Preorder Rank] [WellFoundedLT Rank] (rank : State → Rank)
    {Stage Goal : State → Prop}
    (advance :
      ∀ state, Stage state →
        Goal state ∨
          ∃ next, Reaches step allowed state next ∧ Stage next ∧
            rank next < rank state)
    (start : State) (initial : Stage start) :
    ∃ finish, Reaches step allowed start finish ∧ Goal finish := by
  induction same : rank start using WellFoundedLT.induction
    generalizing start with
  | ind value induction =>
      rcases advance start initial with reached | ⟨next, led, stage, lower⟩
      · exact ⟨start, Reaches.refl start, reached⟩
      · rw [same] at lower
        rcases induction (rank next) lower next stage rfl with
          ⟨finish, onward, reached⟩
        exact ⟨finish, led.trans onward, reached⟩

end

/-- The rank of a list of threads falls with the rank of one of them. -/
theorem sum_map_set_lt
    {Thread : Type*} {rank : Thread → Nat} {threads : List Thread}
    {index : Nat} {before after : Thread}
    (found : threads[index]? = some before)
    (lower : rank after < rank before) :
    ((threads.set index after).map rank).sum < (threads.map rank).sum := by
  induction threads generalizing index with
  | nil => cases found
  | cons thread threads induction =>
      cases index with
      | zero =>
          cases found
          rw [List.set_cons_zero, List.map_cons, List.map_cons, List.sum_cons,
            List.sum_cons]
          exact Nat.add_lt_add_right lower _
      | succ index =>
          rw [List.set_cons_succ, List.map_cons, List.map_cons, List.sum_cons,
            List.sum_cons]
          exact Nat.add_lt_add_left (induction found) _

end Confos.Library.Machines
