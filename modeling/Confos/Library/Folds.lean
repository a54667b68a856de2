import Mathlib.Data.List.Basic

/-!
# Folds in which the last event wins

What a fold keeps for one key is decided by the last event that says something
about it.
-/

namespace Confos.Library.Folds

universe u v w

variable {State : Type u} {Event : Type v} {Value : Type w}

/-- The value of the last event that has one. -/
def lastSome (value : Event → Option Value) (events : List Event) :
    Option Value :=
  events.reverse.findSome? value

variable {value : Event → Option Value} {events : List Event}

theorem lastSome_cons (event : Event) :
    lastSome value (event :: events) =
      (lastSome value events).or (value event) := by
  rw [lastSome, List.reverse_cons, List.findSome?_append, lastSome]
  congr 1
  cases found : value event <;> simp [found]

theorem lastSome_filterMap {Source : Type*} (read : Source → Option Event)
    (sources : List Source) :
    lastSome value (sources.filterMap read) =
      lastSome (fun source => (read source).bind value) sources := by
  induction sources with
  | nil => rfl
  | cons source sources induction =>
      rw [List.filterMap_cons, lastSome_cons]
      cases found : read source with
      | none => simpa using induction
      | some event =>
          rw [lastSome_cons, induction]
          rfl

theorem lastSome_congr
    {other : Event → Option Value}
    (same : ∀ event ∈ events, value event = other event) :
    lastSome value events = lastSome other events := by
  induction events with
  | nil => rfl
  | cons event events induction =>
      rw [lastSome_cons, lastSome_cons, same event List.mem_cons_self,
        induction fun later member =>
          same later (List.mem_cons_of_mem _ member)]

theorem lastSome_eq_some_iff {found : Value} :
    lastSome value events = some found ↔
      ∃ before event after,
        events = before ++ event :: after ∧ value event = some found ∧
          ∀ later ∈ after, value later = none := by
  rw [lastSome, List.findSome?_eq_some_iff]
  constructor
  · rintro ⟨later, event, earlier, reversed, found, none_later⟩
    refine
      ⟨earlier.reverse, event, later.reverse, ?_, found, ?_⟩
    · have whole := congrArg List.reverse reversed
      simpa using whole
    · intro event member
      exact none_later event (List.mem_reverse.1 member)
  · rintro ⟨before, event, after, rfl, found, none_later⟩
    refine ⟨after.reverse, event, before.reverse, by simp, found, ?_⟩
    intro later member
    exact none_later later (List.mem_reverse.1 member)

theorem isSome_lastSome_iff :
    (lastSome value events).isSome = true ↔
      ∃ event ∈ events, (value event).isSome = true := by
  rw [lastSome, List.findSome?_isSome_iff]
  simp

/-- The event that decides, among those that satisfy a predicate. -/
def IsLast
    (Relevant : Event → Prop) (events : List Event) (event : Event) : Prop :=
  ∃ before after,
    events = before ++ event :: after ∧ Relevant event ∧
      ∀ later ∈ after, ¬ Relevant later

theorem lastSome_eq_some_iff_isLast {found : Value} :
    lastSome value events = some found ↔
      ∃ event,
        IsLast (fun event => (value event).isSome = true) events event ∧
          value event = some found := by
  rw [lastSome_eq_some_iff]
  constructor
  · rintro ⟨before, event, after, split, isFound, none_later⟩
    refine ⟨event, ⟨before, after, split, by simp [isFound], ?_⟩, isFound⟩
    intro later member
    simp [none_later later member]
  · rintro ⟨event, ⟨before, after, split, -, none_later⟩, isFound⟩
    refine ⟨before, event, after, split, isFound, ?_⟩
    intro later member
    simpa using none_later later member

/-- Only what the predicate says of the listed events matters. -/
theorem isLast_congr
    {Relevant Other : Event → Prop}
    (same : ∀ event ∈ events, Relevant event ↔ Other event)
    {event : Event} :
    IsLast Relevant events event ↔ IsLast Other events event := by
  constructor
  · rintro ⟨before, after, rfl, relevant, none_later⟩
    refine ⟨before, after, rfl, (same event (by simp)).1 relevant, ?_⟩
    intro later member other
    exact none_later later member ((same later (by simp [member])).2 other)
  · rintro ⟨before, after, rfl, other, none_later⟩
    refine ⟨before, after, rfl, (same event (by simp)).2 other, ?_⟩
    intro later member relevant
    exact none_later later member ((same later (by simp [member])).1 relevant)

theorem isLast_iff_getLast?_filter
    {Relevant : Event → Prop} [DecidablePred Relevant] {event : Event} :
    IsLast Relevant events event ↔
      (events.filter fun event => decide (Relevant event)).getLast? =
        some event := by
  constructor
  · rintro ⟨before, after, rfl, relevant, none_later⟩
    have skipped :
        (after.filter fun event => decide (Relevant event)) = [] := by
      apply List.filter_eq_nil_iff.2
      intro later member
      simp [none_later later member]
    rw [List.filter_append, List.filter_cons_of_pos (by simp [relevant]),
      skipped]
    simp
  · intro last
    rcases List.getLast?_eq_some_iff.1 last with ⟨earlier, filtered⟩
    rcases List.filter_eq_append_iff.1 filtered with
      ⟨before, rest, rfl, -, ended⟩
    rcases List.filter_eq_cons_iff.1 ended with
      ⟨skipped, after, rfl, -, relevant, none_later⟩
    refine
      ⟨before ++ skipped, after, by simp, of_decide_eq_true relevant, ?_⟩
    intro later member relevantLater
    have kept :
        later ∈ after.filter fun event => decide (Relevant event) :=
      List.mem_filter.2 ⟨member, decide_eq_true relevantLater⟩
    rw [none_later] at kept
    cases kept

theorem isLast_map_iff
    {Source : Type*} (name : Source → Event) {Relevant : Event → Prop}
    {sources : List Source} {event : Event} :
    IsLast Relevant (sources.map name) event ↔
      ∃ source,
        IsLast (fun source => Relevant (name source)) sources source ∧
          name source = event := by
  constructor
  · rintro ⟨before, after, split, relevant, none_later⟩
    rcases List.map_eq_append_iff.1 split with
      ⟨first, rest, rfl, rfl, ended⟩
    rcases List.map_eq_cons_iff.1 ended with
      ⟨source, last, rfl, rfl, rfl⟩
    refine ⟨source, ⟨first, last, rfl, relevant, ?_⟩, rfl⟩
    intro later member
    exact none_later (name later) (List.mem_map_of_mem member)
  · rintro ⟨source, ⟨before, after, rfl, relevant, none_later⟩, rfl⟩
    refine ⟨before.map name, after.map name, by simp, relevant, ?_⟩
    intro later member
    rcases List.mem_map.1 member with ⟨original, inside, rfl⟩
    exact none_later original inside

/-- An event that is not relevant can stand anywhere. -/
theorem isLast_insert_iff
    {Relevant : Event → Prop} {skipped event : Event}
    (irrelevant : ¬ Relevant skipped) {before after : List Event} :
    IsLast Relevant (before ++ skipped :: after) event ↔
      IsLast Relevant (before ++ after) event := by
  classical
  rw [isLast_iff_getLast?_filter, isLast_iff_getLast?_filter,
    List.filter_append, List.filter_append,
    List.filter_cons_of_neg (by simp [irrelevant])]

/-- The rule of a fold in which every event that says something overrides. -/
theorem foldl_lastSome
    {step : State → Event → State} {view : State → Option Value}
    (overrides :
      ∀ state event,
        view (step state event) = (value event).or (view state))
    (start : State) :
    view (events.foldl step start) =
      (lastSome value events).or (view start) := by
  induction events generalizing start with
  | nil => rfl
  | cons event events induction =>
      rw [List.foldl_cons, induction, overrides, lastSome_cons,
        Option.or_assoc]

end Confos.Library.Folds
