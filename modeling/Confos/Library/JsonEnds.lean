import Confos.Library.Json

/-!
# Where a JSON text ends

Two facts about the reader.  What the interpreter bears decides whether a text
is read, never what it denotes; and behind a complete object only blanks can
follow, which change nothing.
-/

namespace Confos.Library.Json

open Confos.Library.Fallible

/-! ## What the interpreter bears -/

/-- The same result, unless one of the two is a failure of the interpreter. -/
def Agrees {α : Type} (left right : Except Failure α) : Prop :=
  left = right ∨ left = .error .interpreter ∨ right = .error .interpreter

section

variable {α β : Type}

theorem agrees_rfl (result : Except Failure α) : Agrees result result :=
  Or.inl rfl

theorem agrees_bind
    {left right : Except Failure α} {first second : α → Except Failure β}
    (agrees : Agrees left right)
    (each : ∀ value, Agrees (first value) (second value)) :
    Agrees (left >>= first) (right >>= second) := by
  rcases agrees with rfl | rfl | rfl
  · cases left with
    | error failure => exact agrees_rfl _
    | ok value => exact each value
  · exact Or.inr (Or.inl rfl)
  · exact Or.inr (Or.inr rfl)

theorem agrees_ite
    {first second : Prop} [Decidable first] [Decidable second]
    (result : Except Failure α) :
    Agrees (if first then result else .error .interpreter)
      (if second then result else .error .interpreter) := by
  by_cases firstHolds : first
  · by_cases secondHolds : second
    · rw [if_pos firstHolds, if_pos secondHolds]
      exact agrees_rfl result
    · rw [if_neg secondHolds]
      exact Or.inr (Or.inr rfl)
  · rw [if_neg firstHolds]
    exact Or.inr (Or.inl rfl)

theorem agrees_ite_not
    {first second : Prop} [Decidable first] [Decidable second]
    (result : Except Failure α) :
    Agrees (if first then .error .interpreter else result)
      (if second then .error .interpreter else result) := by
  rw [← ite_not, ← ite_not (p := second)]
  exact agrees_ite result

end

section

variable (limits others : Limits)

theorem agrees_numberFinish (state : NumberState) :
    Agrees (state.finish limits) (state.finish others) := by
  rw [NumberState.finish, NumberState.finish]
  cases state.phase with
  | minus => exact agrees_rfl _
  | zero => exact agrees_ite_not _
  | digits => exact agrees_ite_not _
  | point => exact agrees_ite_not _
  | fraction => exact agrees_ite_not _
  | exponent => exact agrees_ite_not _
  | exponentSign => exact agrees_ite_not _
  | exponentDigits => exact agrees_ite_not _

/-- Only containers are counted. -/
theorem beginValue_eq_of_ne
    {char : Char} (noArray : char ≠ '[') (noObject : char ≠ '{')
    (frames : List Frame) :
    beginValue limits frames char = beginValue others frames char := by
  simp only [beginValue]
  split
  case h_2 => exact absurd rfl noArray
  case h_3 => exact absurd rfl noObject
  all_goals rfl

theorem agrees_beginValue (frames : List Frame) (char : Char) :
    Agrees (beginValue limits frames char)
      (beginValue others frames char) := by
  by_cases isArray : char = '['
  · rw [isArray]
    exact agrees_ite _
  by_cases isObject : char = '{'
  · rw [isObject]
    exact agrees_ite _
  rw [beginValue_eq_of_ne limits others isArray isObject]
  exact agrees_rfl _

theorem agrees_step (state : State) (char : Char) :
    Agrees (step limits state char) (step others state char) := by
  rcases state with ⟨frames, phase⟩
  cases phase with
  | value =>
      simp only [step]
      split
      · exact agrees_rfl _
      · exact agrees_beginValue limits others frames char
  | firstItem =>
      simp only [step]
      split
      · exact agrees_rfl _
      split
      · exact agrees_rfl _
      · exact agrees_beginValue limits others _ char
  | number reading =>
      simp only [step]
      cases reading.next char with
      | some next => exact agrees_rfl _
      | none =>
          cases reading.phase with
          | minus => exact agrees_rfl _
          | _ =>
              exact
                agrees_bind (agrees_numberFinish limits others reading)
                  fun value => agrees_rfl _
  | literal rest value =>
      cases rest with
      | nil => exact agrees_rfl _
      | cons first rest =>
          cases rest with
          | nil => exact agrees_rfl _
          | cons second rest => exact agrees_rfl _
  | _ => exact agrees_rfl _

theorem agrees_foldlM (text : List Char) (state : State) :
    Agrees (text.foldlM (step limits) state)
      (text.foldlM (step others) state) := by
  induction text generalizing state with
  | nil => exact agrees_rfl _
  | cons char text induction =>
      rw [List.foldlM_cons, List.foldlM_cons]
      exact agrees_bind (agrees_step limits others state char) induction

theorem agrees_finish (state : State) :
    Agrees (finish limits state) (finish others state) := by
  rcases state with ⟨frames, phase⟩
  cases phase with
  | number reading =>
      have numbers :=
        agrees_bind (agrees_numberFinish limits others reading)
          fun value =>
            agrees_rfl
              (if frames.isEmpty then .ok value else .error .decode)
      cases frames with
      | nil => exact numbers
      | cons frame frames => exact numbers
  | _ =>
      cases frames with
      | nil => exact agrees_rfl _
      | cons frame frames => exact agrees_rfl _

/-- What a text denotes does not depend on what the interpreter bears. -/
theorem agrees_loads (text : List Char) :
    Agrees (loads limits text) (loads others text) :=
  agrees_bind (agrees_foldlM limits others text _)
    (agrees_finish limits others)

end

/-! ## Blanks behind a text -/

section

variable {limits : Limits}

/-- A literal being read lacks a character, and is no container. -/
def Phase.Lacking : Phase → Prop
  | .literal rest meant => rest ≠ [] ∧ ∀ members, meant ≠ .object members
  | _ => True

theorem lacking_beginValue
    {frames : List Frame} {char : Char} {next : State}
    (began : beginValue limits frames char = .ok next) :
    next.phase.Lacking := by
  simp only [beginValue] at began
  split at began
  case h_2 =>
    split at began
    · cases began
      trivial
    · cases began
  case h_3 =>
    split at began
    · cases began
      trivial
    · cases began
  case h_11 =>
    split at began
    · cases began
      trivial
    · cases began
  case h_9 =>
    cases began
    trivial
  case h_10 =>
    cases began
    trivial
  case h_1 =>
    cases began
    trivial
  all_goals
    cases began
    exact ⟨List.cons_ne_nil _ _, fun _ impossible => by cases impossible⟩

theorem lacking_endedStep
    {frames : List Frame} {value : Value} {char : Char} {next : State}
    (stepped : endedStep frames value char = .ok next) :
    next.phase.Lacking := by
  rw [endedStep] at stepped
  split at stepped
  · cases stepped
    trivial
  · rw [afterValue.eq_def] at stepped
    split at stepped
    · cases stepped
    all_goals
      split at stepped
      · cases stepped
        trivial
      split at stepped
      · cases stepped
        trivial
      · cases stepped

theorem lacking_stringStep
    {reading : StringState} {char : Char} {next : Phase}
    (stepped : stringStep reading char = .ok next) : next.Lacking := by
  rw [stringStep] at stepped
  split at stepped
  · cases stepped
    rw [StringState.close]
    split <;> trivial
  split at stepped
  · cases stepped
    trivial
  split at stepped
  · cases stepped
  · cases stepped
    trivial

theorem lacking_escapeStep
    {reading : StringState} {char : Char} {next : Phase}
    (stepped : escapeStep reading char = .ok next) : next.Lacking := by
  rw [escapeStep.eq_def] at stepped
  split at stepped
  all_goals
    cases stepped
    try trivial

theorem lacking_unicodeStep
    {reading : StringState} {missing code : Nat} {char : Char} {next : Phase}
    (stepped : unicodeStep reading missing code char = .ok next) :
    next.Lacking := by
  rw [unicodeStep] at stepped
  split at stepped
  · cases stepped
  · split at stepped
    · cases stepped
      trivial
    · cases stepped
      trivial

theorem map_eq_ok {α β : Type} {result : Except Failure α} {change : α → β}
    {value : β} :
    result.map change = .ok value ↔ ∃ found, result = .ok found ∧
      change found = value := by
  cases result with
  | error failure =>
      constructor
      · intro impossible
        cases impossible
      · rintro ⟨found, impossible, -⟩
        cases impossible
  | ok found =>
      constructor
      · intro same
        cases same
        exact ⟨found, rfl, rfl⟩
      · rintro ⟨other, same, rfl⟩
        cases same
        rfl

/-- A step leaves no complete literal. -/
theorem lacking_step
    {state next : State} {char : Char} (lacking : state.phase.Lacking)
    (stepped : step limits state char = .ok next) : next.phase.Lacking := by
  rcases state with ⟨frames, phase⟩
  cases phase with
  | value =>
      simp only [step] at stepped
      split at stepped
      · cases stepped
        trivial
      · exact lacking_beginValue stepped
  | firstItem =>
      simp only [step] at stepped
      split at stepped
      · cases stepped
        trivial
      split at stepped
      · cases stepped
        trivial
      · exact lacking_beginValue stepped
  | firstKey =>
      simp only [step] at stepped
      split at stepped
      · cases stepped
        trivial
      split at stepped
      · cases stepped
        trivial
      split at stepped
      · cases stepped
        trivial
      · cases stepped
  | nextKey members =>
      simp only [step] at stepped
      split at stepped
      · cases stepped
        trivial
      split at stepped
      · cases stepped
        trivial
      · cases stepped
  | colon members key =>
      simp only [step] at stepped
      split at stepped
      · cases stepped
        trivial
      split at stepped
      · cases stepped
        trivial
      · cases stepped
  | ended value => exact lacking_endedStep stepped
  | string reading =>
      rcases map_eq_ok.1 stepped with ⟨phase, found, rfl⟩
      exact lacking_stringStep found
  | escape reading =>
      rcases map_eq_ok.1 stepped with ⟨phase, found, rfl⟩
      exact lacking_escapeStep found
  | unicode reading missing code =>
      rcases map_eq_ok.1 stepped with ⟨phase, found, rfl⟩
      exact lacking_unicodeStep found
  | literal rest value =>
      cases rest with
      | nil => exact lacking_endedStep stepped
      | cons expected rest =>
          cases rest with
          | nil =>
              simp only [step] at stepped
              split at stepped
              · cases stepped
                trivial
              · cases stepped
          | cons second rest =>
              simp only [step] at stepped
              split at stepped
              · cases stepped
                exact ⟨List.cons_ne_nil _ _, lacking.2⟩
              · cases stepped
  | number reading =>
      simp only [step] at stepped
      split at stepped
      · cases stepped
        trivial
      · split at stepped
        · split at stepped
          · cases stepped
            exact
              ⟨List.cons_ne_nil _ _, fun _ impossible => by cases impossible⟩
          · cases stepped
        · rcases bind_eq_ok.1 stepped with ⟨value, -, ended⟩
          exact lacking_endedStep ended

theorem lacking_foldlM
    {state next : State} {text : List Char} (lacking : state.phase.Lacking)
    (ran : text.foldlM (step limits) state = .ok next) :
    next.phase.Lacking :=
  foldlM_invariant (fun _ current => current.phase.Lacking) lacking
    (fun _ _ _ _ before stepped => lacking_step before stepped) ran

theorem isBlank_iff {char : Char} :
    isBlank char = true ↔
      char = ' ' ∨ char = '\t' ∨ char = '\n' ∨ char = '\r' := by
  simp [isBlank, or_assoc]

/-- The state behind a complete object. -/
abbrev behind (members : Members) : State :=
  ⟨[], .ended (.object members)⟩

theorem step_behind_eq_ok
    {members : Members} {char : Char} {next : State} :
    step limits (behind members) char = .ok next ↔
      isBlank char = true ∧ next = behind members := by
  change endedStep [] (.object members) char = .ok next ↔ _
  rw [endedStep]
  split
  · next blank =>
      constructor
      · intro same
        cases same
        exact ⟨blank, rfl⟩
      · rintro ⟨-, rfl⟩
        rfl
  · next solid =>
      constructor
      · intro impossible
        cases impossible
      · rintro ⟨blank, -⟩
        exact absurd blank solid

/-- Behind an object blanks alone can follow. -/
theorem foldlM_behind_eq_ok
    {members : Members} {text : List Char} {next : State} :
    text.foldlM (step limits) (behind members) = .ok next ↔
      (∀ char ∈ text, isBlank char = true) ∧ next = behind members := by
  induction text with
  | nil =>
      constructor
      · intro same
        cases same
        exact ⟨fun _ impossible => absurd impossible List.not_mem_nil, rfl⟩
      · rintro ⟨-, rfl⟩
        rfl
  | cons char text induction =>
      rw [List.foldlM_cons, bind_eq_ok, List.forall_mem_cons]
      constructor
      · rintro ⟨middle, stepped, continued⟩
        rcases step_behind_eq_ok.1 stepped with ⟨blank, rfl⟩
        rcases induction.1 continued with ⟨blanks, rfl⟩
        exact ⟨⟨blank, blanks⟩, rfl⟩
      · rintro ⟨⟨blank, blanks⟩, rfl⟩
        exact
          ⟨_, step_behind_eq_ok.2 ⟨blank, rfl⟩, induction.2 ⟨blanks, rfl⟩⟩

theorem numberFinish_eq_ok
    {reading : NumberState} {value : Value}
    (finished : reading.finish limits = .ok value) :
    value = .number reading.literal := by
  rw [NumberState.finish] at finished
  cases phase : reading.phase <;> simp only [phase] at finished
  all_goals
    first
    | cases finished
    | split at finished
      · cases finished
      · cases finished
        try rfl

/-- The string that a blank is in goes on. -/
theorem blank_in_string
    {reading : StringState} {char : Char} {next : Phase}
    (blank : isBlank char = true)
    (stepped : stringStep reading char = .ok next) :
    ∃ more, next = .string more := by
  rcases isBlank_iff.1 blank with rfl | rfl | rfl | rfl
  · cases stepped
    exact ⟨_, rfl⟩
  · cases stepped
  · cases stepped
  · cases stepped

theorem escapeStep_blank
    (reading : StringState) {char : Char} (blank : isBlank char = true) :
    escapeStep reading char = .error .decode := by
  rcases isBlank_iff.1 blank with rfl | rfl | rfl | rfl <;> rfl

theorem unicodeStep_blank
    (reading : StringState) (missing code : Nat) {char : Char}
    (blank : isBlank char = true) :
    unicodeStep reading missing code char = .error .decode := by
  rcases isBlank_iff.1 blank with rfl | rfl | rfl | rfl <;> rfl

theorem endedStep_blank
    (frames : List Frame) (value : Value) {char : Char}
    (blank : isBlank char = true) :
    endedStep frames value char = .ok ⟨frames, .ended value⟩ := by
  rw [endedStep, if_pos blank]

/-- A blank completes no object. -/
theorem eq_behind_of_step
    {state : State} {members : Members} {char : Char}
    (lacking : state.phase.Lacking) (blank : isBlank char = true)
    (stepped : step limits state char = .ok (behind members)) :
    state = behind members := by
  rcases state with ⟨frames, phase⟩
  cases phase with
  | value =>
      simp only [step, blank, if_true] at stepped
      cases stepped
  | firstItem =>
      simp only [step, blank, if_true] at stepped
      cases stepped
  | firstKey =>
      simp only [step, blank, if_true] at stepped
      cases stepped
  | nextKey others =>
      simp only [step, blank, if_true] at stepped
      cases stepped
  | colon others key =>
      simp only [step, blank, if_true] at stepped
      cases stepped
  | ended value =>
      simp only [step, endedStep_blank frames value blank] at stepped
      cases stepped
      rfl
  | string reading =>
      rcases map_eq_ok.1 stepped with ⟨phase, found, same⟩
      rcases blank_in_string blank found with ⟨more, rfl⟩
      cases same
  | escape reading =>
      simp only [step, escapeStep_blank reading blank] at stepped
      cases stepped
  | unicode reading missing code =>
      simp only [step, unicodeStep_blank reading missing code blank]
        at stepped
      cases stepped
  | literal rest value =>
      cases rest with
      | nil => exact absurd rfl lacking.1
      | cons expected rest =>
          cases rest with
          | nil =>
              simp only [step] at stepped
              split at stepped
              · cases stepped
                exact absurd rfl (lacking.2 members)
              · cases stepped
          | cons second rest =>
              simp only [step] at stepped
              split at stepped
              · cases stepped
              · cases stepped
  | number reading =>
      simp only [step] at stepped
      split at stepped
      · cases stepped
      · split at stepped
        · split at stepped
          · cases stepped
          · cases stepped
        · rcases bind_eq_ok.1 stepped with ⟨value, finished, ended⟩
          rw [numberFinish_eq_ok finished, endedStep_blank frames _ blank]
            at ended
          cases ended

theorem eq_behind_of_foldlM
    {state : State} {members : Members} {text : List Char}
    (lacking : state.phase.Lacking)
    (blanks : ∀ char ∈ text, isBlank char = true)
    (ran : text.foldlM (step limits) state = .ok (behind members)) :
    state = behind members := by
  induction text generalizing state with
  | nil =>
      cases ran
      rfl
  | cons char text induction =>
      rcases List.forall_mem_cons.1 blanks with ⟨blank, later⟩
      rw [List.foldlM_cons] at ran
      rcases bind_eq_ok.1 ran with ⟨middle, stepped, continued⟩
      cases induction (lacking_step lacking stepped) later continued
      exact eq_behind_of_step lacking blank stepped

/-! ## Texts that denote an object -/

theorem finish_eq_object
    {state : State} {members : Members} :
    finish limits state = .ok (.object members) ↔
      state = behind members := by
  constructor
  · intro finished
    rcases state with ⟨frames, phase⟩
    cases phase with
    | number reading =>
        have numbered :
            (reading.finish limits >>= fun value =>
              if frames.isEmpty then .ok value else .error .decode) =
                .ok (.object members) := by
          cases frames with
          | nil => exact finished
          | cons frame frames => exact finished
        rcases bind_eq_ok.1 numbered with ⟨value, ended, returned⟩
        rw [numberFinish_eq_ok ended] at returned
        split at returned
        · cases returned
        · cases returned
    | ended value =>
        cases frames with
        | nil =>
            cases finished
            rfl
        | cons frame frames => cases finished
    | _ =>
        cases frames with
        | nil => cases finished
        | cons frame frames => cases finished
  · rintro rfl
    rfl

theorem loads_eq_object
    {text : List Char} {members : Members} :
    loads limits text = .ok (.object members) ↔
      text.foldlM (step limits) ⟨[], .value⟩ = .ok (behind members) := by
  rw [loads, bind_eq_ok]
  constructor
  · rintro ⟨state, ran, finished⟩
    rw [finish_eq_object.1 finished] at ran
    exact ran
  · intro ran
    exact ⟨_, ran, finish_eq_object.2 rfl⟩

/-- Blanks behind a text change nothing. -/
theorem loads_append_blanks
    {text blanks : List Char} {members : Members}
    (blank : ∀ char ∈ blanks, isBlank char = true) :
    loads limits (text ++ blanks) = .ok (.object members) ↔
      loads limits text = .ok (.object members) := by
  rw [loads_eq_object, loads_eq_object, List.foldlM_append, bind_eq_ok]
  constructor
  · rintro ⟨state, ran, continued⟩
    have lacking : state.phase.Lacking := lacking_foldlM (by trivial) ran
    rw [eq_behind_of_foldlM lacking blank continued] at ran
    exact ran
  · intro ran
    exact ⟨_, ran, foldlM_behind_eq_ok.2 ⟨blank, rfl⟩⟩

end

/-- A text denotes a value if the interpreter can bear it. -/
def Denotes (text : List Char) (value : Value) : Prop :=
  ∃ limits, loads limits text = .ok value

theorem Denotes.unique
    {text : List Char} {value other : Value} (denotes : Denotes text value)
    (also : Denotes text other) : value = other := by
  rcases denotes with ⟨limits, read⟩
  rcases also with ⟨others, readOther⟩
  have agrees := agrees_loads limits others text
  rw [read, readOther] at agrees
  rcases agrees with same | impossible | impossible
  · cases same
    rfl
  · cases impossible
  · cases impossible

/-- What the interpreter bears it reads as the text means. -/
theorem loads_of_denotes
    {text : List Char} {value : Value} {limits : Limits}
    (denotes : Denotes text value)
    (bearable : loads limits text ≠ .error .interpreter) :
    loads limits text = .ok value := by
  rcases denotes with ⟨others, read⟩
  rcases agrees_loads limits others text with same | impossible | impossible
  · rw [same, read]
  · exact absurd impossible bearable
  · rw [read] at impossible
    cases impossible

/-- An object is followed by blanks alone, and they do not change it. -/
theorem blank_of_denotes
    {text tail : List Char} {members others : Members}
    (front : Denotes text (.object members))
    (whole : Denotes (text ++ tail) (.object others)) :
    ∀ char ∈ tail, isBlank char = true := by
  rcases whole with ⟨limits, read⟩
  rw [loads_eq_object, List.foldlM_append] at read
  rcases bind_eq_ok.1 read with ⟨state, ran, continued⟩
  rcases front with ⟨bounds, readFront⟩
  rw [loads_eq_object] at readFront
  have agrees := agrees_foldlM bounds limits text ⟨[], .value⟩
  rw [readFront, ran] at agrees
  rcases agrees with same | impossible | impossible
  · cases same
    exact (foldlM_behind_eq_ok.1 continued).1
  · cases impossible
  · cases impossible

end Confos.Library.Json
