import Mathlib.Data.List.Basic

/-!
# Lists in terminated pieces

A list is read piece by piece, each up to a mark and with it.  Only the last
piece may be without one, and what stands behind a mark is read as if nothing
were in front.
-/

namespace Confos.Library.Terminated

variable {α : Type} [DecidableEq α]

/-- The items up to the first mark and with it, and what follows. -/
def readUntil (mark : α) : List α → List α × List α
  | [] => ([], [])
  | item :: items =>
      if item = mark then
        ([item], items)
      else
        let read := readUntil mark items
        (item :: read.1, read.2)

/-- The pieces, cut behind every mark. -/
def splitAfter (mark : α) : List α → List (List α)
  | [] => []
  | item :: items =>
      if item = mark then
        [item] :: splitAfter mark items
      else
        match splitAfter mark items with
        | [] => [[item]]
        | piece :: pieces => (item :: piece) :: pieces

/-- Nothing, or whole pieces only. -/
def Closed (mark : α) (items : List α) : Prop :=
  ∀ last ∈ items.getLast?, last = mark

variable {mark : α}

/-- The pieces are what is read one after the other. -/
theorem splitAfter_eq_cons
    {items : List α} (nonempty : items ≠ []) :
    splitAfter mark items =
      (readUntil mark items).1 ::
        splitAfter mark (readUntil mark items).2 := by
  induction items with
  | nil => exact absurd rfl nonempty
  | cons item items induction =>
      rw [splitAfter, readUntil]
      split
      · rfl
      · cases items with
        | nil => rfl
        | cons other items => rw [induction (List.cons_ne_nil _ _)]

theorem readUntil_fst_ne_nil
    {items : List α} (nonempty : items ≠ []) :
    (readUntil mark items).1 ≠ [] := by
  cases items with
  | nil => exact absurd rfl nonempty
  | cons item items =>
      rw [readUntil]
      split
      · exact List.cons_ne_nil _ _
      · exact List.cons_ne_nil _ _

theorem readUntil_append (items : List α) :
    (readUntil mark items).1 ++ (readUntil mark items).2 = items := by
  induction items with
  | nil => rfl
  | cons item items induction =>
      rw [readUntil]
      split
      · rfl
      · exact congrArg (item :: ·) induction

/-- Each turn of a reader leaves less to read. -/
theorem length_readUntil_snd
    {items : List α} (nonempty : items ≠ []) :
    (readUntil mark items).2.length < items.length := by
  have lengths := congrArg List.length (@readUntil_append _ _ mark items)
  rw [List.length_append] at lengths
  have progress :=
    List.length_pos_iff.2 (@readUntil_fst_ne_nil _ _ mark _ nonempty)
  omega

/-- What is read without a mark is all there was. -/
theorem readUntil_snd_eq_nil
    {items : List α}
    (unended : (readUntil mark items).1.getLast? ≠ some mark) :
    (readUntil mark items).2 = [] := by
  induction items with
  | nil => rfl
  | cons item items induction =>
      rw [readUntil] at unended ⊢
      split at unended
      · next isMark => exact absurd (congrArg some isMark) unended
      · next notMark =>
          rw [if_neg notMark]
          apply induction
          cases items with
          | nil => simp [readUntil]
          | cons other items =>
              have inner :=
                @readUntil_fst_ne_nil _ _ mark _ (List.cons_ne_nil other items)
              rw [List.getLast?_cons_of_ne_nil inner] at unended
              exact unended

/-- The pieces make up the list. -/
theorem flatten_splitAfter (items : List α) :
    (splitAfter mark items).flatten = items := by
  induction items with
  | nil => rfl
  | cons item items induction =>
      rw [splitAfter]
      split
      · rw [List.flatten_cons, induction, List.singleton_append]
      · split
        · next none =>
            rw [none] at induction
            rw [← induction]
            rfl
        · next piece pieces some =>
            rw [some] at induction
            rw [← induction]
            rfl

/-- Whole pieces in front are split by themselves. -/
theorem splitAfter_append
    {front : List α} (closed : Closed mark front) (back : List α) :
    splitAfter mark (front ++ back) =
      splitAfter mark front ++ splitAfter mark back := by
  induction front with
  | nil => rfl
  | cons item front induction =>
      rw [List.cons_append, splitAfter, splitAfter]
      cases front with
      | nil =>
          rw [closed item rfl, if_pos rfl, if_pos rfl]
          rfl
      | cons other front =>
          rw [induction closed]
          split
          · rfl
          · rw [splitAfter_eq_cons (List.cons_ne_nil _ _)]
            rfl

/-- Whole pieces end with a mark. -/
theorem getLast?_of_mem_splitAfter
    {items : List α} (closed : Closed mark items) {piece : List α}
    (isPiece : piece ∈ splitAfter mark items) : piece.getLast? = some mark := by
  induction items generalizing piece with
  | nil => cases isPiece
  | cons item items induction =>
      rw [splitAfter] at isPiece
      cases items with
      | nil =>
          rw [closed item rfl, if_pos rfl] at isPiece
          rw [List.mem_singleton.1 isPiece]
          rfl
      | cons other items =>
          have inner := fun {piece} => @induction closed piece
          split at isPiece
          · next isMark =>
              rcases List.mem_cons.1 isPiece with rfl | later
              · exact congrArg some isMark
              · exact inner later
          · rw [splitAfter_eq_cons (List.cons_ne_nil _ _)] at isPiece inner
            rcases List.mem_cons.1 isPiece with rfl | later
            · rw [List.getLast?_cons_of_ne_nil
                (readUntil_fst_ne_nil (List.cons_ne_nil _ _))]
              exact inner List.mem_cons_self
            · exact inner (List.mem_cons_of_mem _ later)

/-- A mark at the end only, if at all, makes one piece. -/
theorem splitAfter_eq_singleton
    {piece : List α} (nonempty : piece ≠ []) (single : mark ∉ piece.dropLast) :
    splitAfter mark piece = [piece] := by
  induction piece with
  | nil => exact absurd rfl nonempty
  | cons item piece induction =>
      cases piece with
      | nil => simp [splitAfter]
      | cons other piece =>
          rw [List.dropLast_cons_cons, List.mem_cons, not_or] at single
          rw [splitAfter, if_neg (Ne.symm single.1),
            induction (List.cons_ne_nil _ _) single.2]

end Confos.Library.Terminated
