import Mathlib.Data.List.Forall2
import Mathlib.Data.List.Induction

/-!
# Loops that can fail

Rules for `Except` computations: what a successful sequence of steps did, and
the invariant rule of a loop that stops at its first error.  The invariant may
speak of the part of the list already consumed.
-/

namespace Confos.Library.Fallible

universe u v w

variable {ε : Type u} {β γ : Type v} {α : Type w}

theorem bind_eq_ok
    {first : Except ε γ} {second : γ → Except ε β} {result : β} :
    (first >>= second) = .ok result ↔
      ∃ value, first = .ok value ∧ second value = .ok result := by
  cases first with
  | error problem =>
      constructor
      · intro impossible
        cases impossible
      · rintro ⟨value, impossible, -⟩
        cases impossible
  | ok value =>
      constructor
      · intro equal
        exact ⟨value, rfl, equal⟩
      · rintro ⟨other, equal, continued⟩
        cases equal
        exact continued

theorem exists_eq_ok_of_isOk
    {result : Except ε β} (succeeded : result.isOk = true) :
    ∃ value, result = .ok value := by
  cases result with
  | error problem => cases succeeded
  | ok value => exact ⟨value, rfl⟩

/-- Items that are read one by one are what the values are written as. -/
theorem mapM_eq_some_iff
    {α β : Type} {read : α → Option β} {write : β → α} {Valid : β → Prop}
    (inverse :
      ∀ item value, read item = some value ↔ item = write value ∧ Valid value)
    {items : List α} {values : List β} :
    items.mapM read = some values ↔
      items = values.map write ∧ ∀ value ∈ values, Valid value := by
  induction items generalizing values with
  | nil =>
      rw [List.mapM_nil]
      constructor
      · intro same
        cases same
        exact ⟨rfl, List.forall_mem_nil _⟩
      · rintro ⟨empty, -⟩
        rw [List.map_eq_nil_iff.1 empty.symm]
        rfl
  | cons item items induction =>
      rw [List.mapM_cons]
      constructor
      · intro all
        rcases Option.bind_eq_some_iff.1 all with ⟨value, first, rest⟩
        rcases Option.bind_eq_some_iff.1 rest with ⟨others, later, same⟩
        cases same
        rcases (inverse item value).1 first with ⟨rfl, valid⟩
        rcases induction.1 later with ⟨rfl, allValid⟩
        exact ⟨rfl, List.forall_mem_cons.2 ⟨valid, allValid⟩⟩
      · rintro ⟨written, allValid⟩
        cases values with
        | nil => cases written
        | cons value values =>
            rcases List.cons.inj written with ⟨first, rest⟩
            rcases List.forall_mem_cons.1 allValid with ⟨valid, others⟩
            rw [(inverse item value).2 ⟨first, valid⟩,
              induction.2 ⟨rest, others⟩]
            rfl

theorem foldlM_concat_eq_ok
    {step : β → α → Except ε β} {start finish : β}
    {items : List α} {item : α} :
    (items ++ [item]).foldlM step start = .ok finish ↔
      ∃ middle, items.foldlM step start = .ok middle ∧
        step middle item = .ok finish := by
  rw [List.foldlM_append, bind_eq_ok]
  simp

/-- What holds of the consumed part and the state at first holds at the end. -/
theorem foldlM_invariant
    {step : β → α → Except ε β}
    (Invariant : List α → β → Prop)
    {start finish : β} {items : List α}
    (initial : Invariant [] start)
    (preserved :
      ∀ consumed item before after,
        Invariant consumed before →
          step before item = .ok after →
            Invariant (consumed ++ [item]) after)
    (run : items.foldlM step start = .ok finish) :
    Invariant items finish := by
  induction items using List.reverseRecOn generalizing finish with
  | nil =>
      cases run
      exact initial
  | append_singleton items item induction =>
      obtain ⟨middle, earlier, last⟩ := foldlM_concat_eq_ok.1 run
      exact preserved items item middle finish (induction earlier) last

/-- The invariant rule for a loop over the items with their indices. -/
theorem foldlM_zipIdx_invariant
    {step : β → α × Nat → Except ε β}
    (Invariant : List α → β → Prop)
    {start finish : β} {items : List α}
    (initial : Invariant [] start)
    (preserved :
      ∀ consumed item before after,
        Invariant consumed before →
          step before (item, consumed.length) = .ok after →
            Invariant (consumed ++ [item]) after)
    (run : items.zipIdx.foldlM step start = .ok finish) :
    Invariant items finish := by
  induction items using List.reverseRecOn generalizing finish with
  | nil =>
      cases run
      exact initial
  | append_singleton items item induction =>
      have split :
          (items ++ [item]).zipIdx = items.zipIdx ++ [(item, items.length)] := by
        simp [List.zipIdx_append]
      rw [split] at run
      obtain ⟨middle, earlier, last⟩ := foldlM_concat_eq_ok.1 run
      exact preserved items item middle finish (induction earlier) last

/--
A fold whose step checks the item alone succeeds if every check does, and is
then the fold over what the checks return.
-/
theorem foldlM_map_eq_ok
    {σ : Type*} {β : Type*} {check : α → Except ε β}
    {record : σ → α → β → σ} {items : List α} {start finish : σ} :
    items.foldlM
        (fun state item => (check item).map (record state item)) start =
        .ok finish ↔
      (∀ item ∈ items, ∃ checked, check item = .ok checked) ∧
        finish =
          items.foldl
            (fun state item =>
              match check item with
              | .ok checked => record state item checked
              | .error _ => state)
            start := by
  induction items generalizing start with
  | nil =>
      constructor
      · intro folded
        cases folded
        exact ⟨fun _ impossible => absurd impossible List.not_mem_nil, rfl⟩
      · rintro ⟨-, rfl⟩
        rfl
  | cons item items induction =>
      rw [List.foldlM_cons, List.foldl_cons]
      cases checked : check item with
      | error problem =>
          constructor
          · intro impossible
            cases impossible
          · rintro ⟨accepted, -⟩
            rcases accepted item List.mem_cons_self with ⟨value, succeeded⟩
            cases checked.symm.trans succeeded
      | ok value =>
          rw [List.forall_mem_cons]
          refine Iff.trans induction ?_
          constructor
          · rintro ⟨accepted, folded⟩
            exact ⟨⟨⟨value, checked⟩, accepted⟩, folded⟩
          · rintro ⟨⟨-, accepted⟩, folded⟩
            exact ⟨accepted, folded⟩

/-- A loop of checks succeeds when each check does. -/
theorem forM_eq_ok {check : α → Except ε PUnit} {items : List α} :
    items.forM check = .ok ⟨⟩ ↔ ∀ item ∈ items, check item = .ok ⟨⟩ := by
  induction items with
  | nil =>
      constructor
      · intro _ item member
        cases member
      · intro _
        rfl
  | cons item items induction =>
      change (check item >>= fun _ => items.forM check) = .ok ⟨⟩ ↔ _
      rw [bind_eq_ok, List.forall_mem_cons]
      constructor
      · rintro ⟨_, first, rest⟩
        exact ⟨first, induction.1 rest⟩
      · rintro ⟨first, rest⟩
        exact ⟨⟨⟩, first, induction.2 rest⟩

/-- A successful map relates each item to its result. -/
theorem mapM_eq_ok
    {change : α → Except ε γ} {items : List α} {results : List γ} :
    items.mapM change = .ok results ↔
      List.Forall₂ (fun item result => change item = .ok result)
        items results := by
  induction items generalizing results with
  | nil =>
      rw [List.forall₂_nil_left_iff]
      constructor
      · intro same
        cases same
        rfl
      · rintro rfl
        rfl
  | cons item items induction =>
      rw [List.mapM_cons, bind_eq_ok, List.forall₂_cons_left_iff]
      constructor
      · rintro ⟨result, first, continued⟩
        rcases bind_eq_ok.1 continued with ⟨rest, others, returned⟩
        cases returned
        exact ⟨result, rest, first, induction.1 others, rfl⟩
      · rintro ⟨result, rest, first, others, rfl⟩
        refine ⟨result, first, ?_⟩
        apply bind_eq_ok.2
        exact ⟨rest, induction.2 others, rfl⟩

theorem mapError_eq_ok
    {ε' : Type*} {result : Except ε β} {change : ε → ε'} {value : β} :
    result.mapError change = .ok value ↔ result = .ok value := by
  cases result with
  | error problem =>
      constructor
      · intro impossible
        cases impossible
      · intro impossible
        cases impossible
  | ok found =>
      constructor
      · intro same
        cases same
        rfl
      · intro same
        cases same
        rfl

end Confos.Library.Fallible
