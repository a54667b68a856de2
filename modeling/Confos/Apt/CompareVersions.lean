import Confos.Apt.DebVersions
import Confos.Library.Fallible
import Confos.Library.PythonText

/-!
# Picking a candidate

`bin/mirror-apt-snapshot` compares the versions of the packages of one name and
mirrors the newest.  It pads two runs of characters to one length and compares
them by numbers.  The classes of characters are Python's on ASCII text, and
`turns` bounds how often its loop over the runs of a part is entered.
-/

namespace Confos.Apt.CompareVersions

open Std
open Confos.Apt.DebVersions
open Confos.Library
open Confos.Library.Comparisons
open Confos.Library.Fallible
open Confos.Library.Numerals
open Confos.Library.Text

inductive Problem where
  | valueError
  | unfinished
deriving DecidableEq, Repr

/-! ## The comparison -/

/-- `_order`. -/
def order (char : Char) : Int :=
  if char = '~' then
    -1
  else if char.isDigit then
    0
  else if char.isAlpha then
    char.toNat
  else
    char.toNat + 256

/-- The order of a character, or of the filler behind a run. -/
def orderOrEnd : Option Char → Int
  | some char => order char
  | none => 0

/-- A run with as many fillers behind it as the other one has characters. -/
def filledUp (run other : List Char) : List (Option Char) :=
  run.map some ++ List.replicate other.length none

/-- What the loop over the characters of two runs returns, if it does. -/
def runDifference (left right : List Char) : Option Int :=
  firstDifference orderOrEnd ((filledUp left right).zip (filledUp right left))

/-- `int(digits or 0)`. -/
def intOrZero (maxDigits : Nat) (digits : List Char) : Except Problem Int :=
  if digits = [] then
    .ok 0
  else
    match PythonText.int maxDigits digits with
    | some value => .ok value
    | none => .error .valueError

/-- `_compare_part`. -/
def comparePart (maxDigits : Nat) :
    Nat → List Char → List Char → Except Problem Int
  | 0, a, b => if a = [] ∧ b = [] then .ok 0 else .error .unfinished
  | turns + 1, a, b =>
      if a = [] ∧ b = [] then
        .ok 0
      else
        let na := a.takeWhile isOther
        let nb := b.takeWhile isOther
        match runDifference na nb with
        | some difference => .ok difference
        | none => do
            let a := a.drop na.length
            let b := b.drop nb.length
            let da := a.takeWhile Char.isDigit
            let db := b.takeWhile Char.isDigit
            let left ← intOrZero maxDigits da
            let right ← intOrZero maxDigits db
            if left ≠ right then
              .ok (left - right)
            else
              comparePart maxDigits turns (a.drop da.length) (b.drop db.length)

def versionKey (maxDigits : Nat) (version : List Char) :
    Except Problem (Int × List Char × List Char) := do
  let (epoch, rest) := (splitOnce ':' version).getD (['0'], version)
  let (upstream, revision) := (splitLast '-' rest).getD (rest, [])
  let number ← intOrZero maxDigits epoch
  return (number, upstream, revision)

def compareVersions (maxDigits turns : Nat) (a b : List Char) :
    Except Problem Int := do
  let (ea, ua, ra) ← versionKey maxDigits a
  let (eb, ub, rb) ← versionKey maxDigits b
  if ea - eb ≠ 0 then
    return ea - eb
  else
    let upstream ← comparePart maxDigits turns ua ub
    if upstream ≠ 0 then
      return upstream
    else
      comparePart maxDigits turns ra rb

/-! ## The candidate -/

section

variable {Entry : Type} (version : Entry → List Char) (maxDigits turns : Nat)

/-- One step of `max` with `candidate_key`. -/
def newer (best entry : Entry) : Except Problem Entry := do
  let difference ←
    compareVersions maxDigits turns (version entry) (version best)
  return if 0 < difference then entry else best

def candidate : List Entry → Except Problem Entry
  | [] => .error .valueError
  | first :: entries =>
      entries.foldlM (newer version maxDigits turns) first

end

/-! ## Versions -/

/-- No more digits stand in a row than are converted. -/
def Short (maxDigits : Nat) (text : List Char) : Prop :=
  ∀ run, run <:+: text → (∀ char ∈ run, char.isDigit = true) →
    PythonText.FitsLimit maxDigits run.length

/--
A version of ASCII characters with a number or nothing for an epoch, and
with no more digits in a row than are converted.
-/
structure Version (maxDigits : Nat) where
  text : List Char
  ascii : ∀ char ∈ text, char.toNat < 128
  epoch : ∀ front back,
    splitOnce ':' text = some (front, back) → front = [] ∨ IsNumeral front
  short : Short maxDigits text

/-! ## Runs are compared by numbers -/

/-- A character that is no digit, or the end. -/
def IsOther (char : Option Char) : Prop :=
  ∀ found ∈ char, found.isDigit = false

theorem toNat_of_isAlpha {char : Char} (alpha : char.isAlpha = true) :
    0 < char.toNat ∧ char.toNat < 256 := by
  delta Char.isAlpha Char.isUpper Char.isLower at alpha
  simp only [Bool.or_eq_true, Bool.and_eq_true, decide_eq_true_eq, ge_iff_le,
    UInt32.le_iff_toNat_le] at alpha
  have upperFirst : 'A'.val.toNat = 65 := rfl
  have upperLast : 'Z'.val.toNat = 90 := rfl
  have lowerFirst : 'a'.val.toNat = 97 := rfl
  have lowerLast : 'z'.val.toNat = 122 := rfl
  have code : char.toNat = char.val.toNat := rfl
  omega

/-- The number of a character is told by its place. -/
theorem place_orderOrEnd {char : Option Char} (other : IsOther char) :
    ((place char).1 = 0 ∧ (place char).2 = 0 ∧ orderOrEnd char = -1) ∨
      ((place char).1 = 1 ∧ (place char).2 = 0 ∧ orderOrEnd char = 0) ∨
        ((place char).1 = 2 ∧ 0 < (place char).2 ∧ (place char).2 < 256 ∧
          orderOrEnd char = (place char).2) ∨
          ((place char).1 = 3 ∧ orderOrEnd char = (place char).2 + 256) := by
  cases char with
  | none => exact Or.inr (Or.inl ⟨rfl, rfl, rfl⟩)
  | some char =>
      have notDigit := other char rfl
      rw [orderOrEnd, order, place, notDigit, if_neg Bool.false_ne_true]
      by_cases tilde : char = '~'
      · rw [if_pos tilde, if_pos tilde]
        exact Or.inl ⟨rfl, rfl, rfl⟩
      · rw [if_neg tilde, if_neg tilde]
        by_cases alpha : char.isAlpha = true
        · rw [if_pos alpha, if_pos alpha]
          rcases toNat_of_isAlpha alpha with ⟨positive, small⟩
          exact Or.inr (Or.inr (Or.inl ⟨rfl, positive, small, rfl⟩))
        · rw [if_neg alpha, if_neg alpha]
          exact Or.inr (Or.inr (Or.inr ⟨rfl, rfl⟩))

/-- The numbers are in the order of the places. -/
theorem comparePlace_eq
    {left right : Option Char} (leftOther : IsOther left)
    (rightOther : IsOther right) :
    comparePlace left right = compareOn orderOrEnd left right := by
  have leftPlace := place_orderOrEnd leftOther
  have rightPlace := place_orderOrEnd rightOther
  rw [comparePlace, compareLex, compareOn, compareOn, compareOn]
  rcases Int.lt_trichotomy (orderOrEnd left) (orderOrEnd right) with
    less | same | greater
  · have before :
        (place left).1 < (place right).1 ∨
          (place left).1 = (place right).1 ∧
            (place left).2 < (place right).2 := by
      omega
    rw [Int.compare_eq_lt.2 less]
    rcases before with kind | ⟨kind, code⟩
    · rw [Nat.compare_eq_lt.2 kind]
      rfl
    · rw [Nat.compare_eq_eq.2 kind, Nat.compare_eq_lt.2 code]
      rfl
  · have equal :
        (place left).1 = (place right).1 ∧
          (place left).2 = (place right).2 := by
      omega
    rw [Int.compare_eq_eq.2 same, Nat.compare_eq_eq.2 equal.1,
      Nat.compare_eq_eq.2 equal.2]
    rfl
  · have behind :
        (place right).1 < (place left).1 ∨
          (place left).1 = (place right).1 ∧
            (place right).2 < (place left).2 := by
      omega
    rw [Int.compare_eq_gt.2 greater]
    rcases behind with kind | ⟨kind, code⟩
    · rw [Nat.compare_eq_gt.2 kind]
      rfl
    · rw [Nat.compare_eq_eq.2 kind, Nat.compare_eq_gt.2 code]
      rfl

theorem padTo_map_some (run other : List Char) :
    padTo none (run.length + other.length) (run.map some) =
      filledUp run other := by
  rw [padTo, filledUp, List.length_map, Nat.add_sub_cancel_left]

theorem length_filledUp (run other : List Char) :
    (filledUp run other).length = run.length + other.length := by
  rw [filledUp, List.length_append, List.length_map, List.length_replicate]

theorem isOther_of_mem_filledUp
    {run other : List Char} (solid : ∀ char ∈ run, char.isDigit = false) :
    ∀ char ∈ filledUp run other, IsOther char := by
  intro char member found isFound
  rcases List.mem_append.1 member with inRun | filler
  · rcases List.mem_map.1 inRun with ⟨known, knownInRun, rfl⟩
    cases isFound
    exact solid found knownInRun
  · rw [List.eq_of_mem_replicate filler] at isFound
    cases isFound

/-- The loop over two runs returns their difference. -/
theorem sign_runDifference
    {left right : List Char}
    (leftSolid : ∀ char ∈ left, char.isDigit = false)
    (rightSolid : ∀ char ∈ right, char.isDigit = false) :
    ((runDifference left right).map sign).getD .eq =
      compareRun left right := by
  have sameLength :
      (filledUp left right).length = (filledUp right left).length := by
    rw [length_filledUp, length_filledUp, Nat.add_comm]
  have padded :
      compareRun left right =
        List.compareLex comparePlace (filledUp left right)
          (filledUp right left) := by
    have leftFits :
        (left.map some).length ≤ left.length + right.length := by
      rw [List.length_map]
      exact Nat.le_add_right _ _
    have rightFits :
        (right.map some).length ≤ left.length + right.length := by
      rw [List.length_map]
      exact Nat.le_add_left _ _
    rw [compareRun, comparePadded_eq_compareLex leftFits rightFits,
      padTo_map_some, Nat.add_comm, padTo_map_some]
  rw [runDifference, ← compareLex_eq_firstDifference sameLength, padded]
  apply compareLex_congr
  intro first inFirst second inSecond
  exact
    (comparePlace_eq (isOther_of_mem_filledUp leftSolid first inFirst)
      (isOther_of_mem_filledUp rightSolid second inSecond)).symm

/-! ## Parts -/

section

variable {maxDigits turns : Nat} {a b part : List Char}

theorem intOrZero_eq
    {digits : List Char} (solid : ∀ char ∈ digits, char.isDigit = true)
    (short : PythonText.FitsLimit maxDigits digits.length) :
    intOrZero maxDigits digits = .ok (decimalValue digits : Int) := by
  rw [intOrZero]
  by_cases empty : digits = []
  · rw [if_pos empty, empty]
    rfl
  · rw [if_neg empty, PythonText.int_of_isNumeral ⟨empty, solid⟩ short]

theorem solid_firstChunk_run (part : List Char) :
    ∀ char ∈ (firstChunk part).run, char.isDigit = false := by
  intro char member
  have other := List.mem_takeWhile_imp member
  simpa [isOther] using other

theorem solid_firstChunk_digits (part : List Char) :
    ∀ char ∈ (firstChunk part).digits, char.isDigit = true :=
  fun _ => List.mem_takeWhile_imp

theorem drop_takeWhile (drops : Char → Bool) (part : List Char) :
    part.drop (part.takeWhile drops).length = part.dropWhile drops := by
  calc
    part.drop (part.takeWhile drops).length =
        (part.takeWhile drops ++ part.dropWhile drops).drop
          (part.takeWhile drops).length := by
      rw [List.takeWhile_append_dropWhile]
    _ = part.dropWhile drops := List.drop_left

/-- One turn of the loop compares the first runs of both parts. -/
theorem comparePart_succ
    (nonempty : a ≠ [] ∨ b ≠ []) (aShort : Short maxDigits a)
    (bShort : Short maxDigits b) :
    comparePart maxDigits (turns + 1) a b =
      match runDifference (firstChunk a).run (firstChunk b).run with
      | some difference => .ok difference
      | none =>
          if decimalValue (firstChunk a).digits ≠
              decimalValue (firstChunk b).digits then
            .ok
              ((decimalValue (firstChunk a).digits : Int) -
                decimalValue (firstChunk b).digits)
          else
            comparePart maxDigits turns (behindChunk a) (behindChunk b) := by
  have left :
      intOrZero maxDigits ((a.dropWhile isOther).takeWhile Char.isDigit) =
        .ok (decimalValue (firstChunk a).digits : Int) :=
    intOrZero_eq (solid_firstChunk_digits a)
      (aShort _ (isInfix_firstChunk_digits a) (solid_firstChunk_digits a))
  have right :
      intOrZero maxDigits ((b.dropWhile isOther).takeWhile Char.isDigit) =
        .ok (decimalValue (firstChunk b).digits : Int) :=
    intOrZero_eq (solid_firstChunk_digits b)
      (bShort _ (isInfix_firstChunk_digits b) (solid_firstChunk_digits b))
  rw [comparePart, if_neg (not_and_or.2 nonempty)]
  cases runs : runDifference (firstChunk a).run (firstChunk b).run with
  | some difference =>
      rw [firstChunk, firstChunk] at runs
      dsimp only at runs ⊢
      rw [runs]
  | none =>
      rw [firstChunk, firstChunk] at runs
      dsimp only at runs ⊢
      rw [runs]
      dsimp only
      rw [drop_takeWhile, drop_takeWhile, left, right, drop_takeWhile,
        drop_takeWhile]
      by_cases same :
          decimalValue (firstChunk a).digits =
            decimalValue (firstChunk b).digits
      · rw [if_neg (not_not.2 same)]
        exact if_neg (not_not.2 (congrArg Int.ofNat same))
      · rw [if_pos same]
        exact if_pos (mt Int.ofNat_inj.1 same)

theorem comparePart_nil (turns : Nat) :
    comparePart maxDigits turns [] [] = .ok 0 := by
  cases turns with
  | zero => rfl
  | succ turns => rfl

theorem Short.behindChunk (short : Short maxDigits part) :
    Short maxDigits (behindChunk part) :=
  fun run inRest digits =>
    short run (inRest.trans (behindChunk_suffix part).isInfix) digits

theorem length_behindChunk_add_lt (nonempty : a ≠ [] ∨ b ≠ []) :
    (DebVersions.behindChunk a).length + (DebVersions.behindChunk b).length <
      a.length + b.length := by
  have left := (behindChunk_suffix a).length_le
  have right := (behindChunk_suffix b).length_le
  rcases nonempty with leftNonempty | rightNonempty
  · have shorter := length_behindChunk leftNonempty
    omega
  · have shorter := length_behindChunk rightNonempty
    omega

/-- Enough turns are more than none. -/
theorem comparePart_of_succ
    {result : Except Problem Int} (nonempty : a ≠ [] ∨ b ≠ [])
    (ends :
      ∀ turns, a.length + b.length ≤ turns + 1 →
        comparePart maxDigits (turns + 1) a b = result) :
    ∀ turns, a.length + b.length ≤ turns →
      comparePart maxDigits turns a b = result := by
  intro turns enough
  cases turns with
  | zero =>
      have shorter := length_behindChunk_add_lt nonempty
      omega
  | succ turns => exact ends turns enough

/-- The loop ends, on the side of zero where the order of the parts is. -/
theorem comparePart_ends
    (aShort : Short maxDigits a) (bShort : Short maxDigits b) :
    ∃ difference,
      (∀ turns, a.length + b.length ≤ turns →
        comparePart maxDigits turns a b = .ok difference) ∧
        sign difference = DebVersions.comparePart a b := by
  generalize size : a.length + b.length = length
  induction length using Nat.strong_induction_on generalizing a b with
  | h length induction =>
      subst size
      by_cases ended : a = [] ∧ b = []
      · rcases ended with ⟨rfl, rfl⟩
        exact ⟨0, fun turns _ => comparePart_nil turns, rfl⟩
      have nonempty : a ≠ [] ∨ b ≠ [] := not_and_or.1 ended
      have shorter := length_behindChunk_add_lt nonempty
      rcases induction _ shorter aShort.behindChunk bShort.behindChunk rfl with
        ⟨rest, restEnds, restSign⟩
      have runs :=
        sign_runDifference (solid_firstChunk_run a) (solid_firstChunk_run b)
      have reference :
          DebVersions.comparePart a b =
            ((compareRun (firstChunk a).run (firstChunk b).run).then
              (compare (decimalValue (firstChunk a).digits)
                (decimalValue (firstChunk b).digits))).then
              (DebVersions.comparePart (behindChunk a) (behindChunk b)) :=
        comparePart_step nonempty
      rw [reference, ← runs]
      -- The first runs decide, or else the numbers behind them, or the rest.
      cases found : runDifference (firstChunk a).run (firstChunk b).run with
      | some difference =>
          have differs : difference ≠ 0 := firstDifference_ne_zero found
          refine ⟨difference, ?_, ?_⟩
          · apply comparePart_of_succ nonempty
            intro turns _
            rw [comparePart_succ nonempty aShort bShort, found]
          · rw [Option.map_some, Option.getD_some, sign_then differs,
              sign_then differs]
      | none =>
          rw [Option.map_none, Option.getD_none, Ordering.eq_then,
            ← sign_natCast_sub]
          by_cases same :
              decimalValue (firstChunk a).digits =
                decimalValue (firstChunk b).digits
          · refine ⟨rest, ?_, ?_⟩
            · apply comparePart_of_succ nonempty
              intro turns enough
              rw [comparePart_succ nonempty aShort bShort, found]
              dsimp only
              rw [if_neg (not_not.2 same)]
              exact
                restEnds turns (Nat.le_of_lt_succ (shorter.trans_le enough))
            · rw [same, Int.sub_self, restSign]
              rfl
          · have differs :
                (decimalValue (firstChunk a).digits : Int) -
                    decimalValue (firstChunk b).digits ≠ 0 := by
              omega
            refine ⟨_, ?_, (sign_then differs _).symm⟩
            apply comparePart_of_succ nonempty
            intro turns _
            rw [comparePart_succ nonempty aShort bShort, found]
            exact if_pos same

/-! ## Keys -/

theorem Short.of_infix
    {text : List Char} (short : Short maxDigits text)
    (isInfix : part <:+: text) : Short maxDigits part :=
  fun run inPart digits => short run (inPart.trans isInfix) digits

/-- A missing revision is compared like the revision zero. -/
theorem comparePart_missing (right : List Char) :
    DebVersions.comparePart ['0'] right =
      DebVersions.comparePart [] right :=
  @comparePadded_singleton _ compareChunk emptyChunk _
    { run := [], digits := ['0'] } (fun _ => rfl) (chunks right)

/-- What the key of a version holds for the revision. -/
def IsRevision (revision reference : List Char) : Prop :=
  revision = reference ∨ revision = [] ∧ reference = ['0']

theorem comparePart_of_isRevision
    {left right leftReference rightReference : List Char}
    (isLeft : IsRevision left leftReference)
    (isRight : IsRevision right rightReference) :
    DebVersions.comparePart left right =
      DebVersions.comparePart leftReference rightReference := by
  have leftSame :
      DebVersions.comparePart left right =
        DebVersions.comparePart leftReference right := by
    rcases isLeft with rfl | ⟨rfl, rfl⟩
    · rfl
    · exact (comparePart_missing right).symm
  rw [leftSame]
  rcases isRight with rfl | ⟨rfl, rfl⟩
  · rfl
  · rw [@OrientedCmp.eq_swap _ DebVersions.comparePart _ leftReference,
      @OrientedCmp.eq_swap _ DebVersions.comparePart _ leftReference ['0'],
      comparePart_missing]

theorem splitRevision_eq (epoch : Nat) (rest : List Char) :
    ∃ upstream revision,
      (splitLast '-' rest).getD (rest, []) = (upstream, revision) ∧
        (splitRevision epoch rest).epoch = epoch ∧
          (splitRevision epoch rest).upstream = upstream ∧
            IsRevision revision (splitRevision epoch rest).revision ∧
              upstream <:+: rest ∧ revision <:+: rest := by
  rw [splitRevision]
  cases split : splitLast '-' rest with
  | none =>
      exact
        ⟨rest, [], rfl, rfl, rfl, Or.inr ⟨rfl, rfl⟩, List.infix_refl rest,
          List.nil_infix⟩
  | some parts =>
      rcases parts with ⟨upstream, revision⟩
      have whole := eq_of_splitLast split
      refine ⟨upstream, revision, rfl, rfl, rfl, Or.inl rfl, ?_, ?_⟩
      · rw [whole]
        exact (List.prefix_append upstream _).isInfix
      · rw [whole]
        exact
          ((List.suffix_cons '-' revision).trans
            (List.suffix_append upstream _)).isInfix

/-- What the epoch of a version is read as, and the text behind it. -/
theorem epoch_eq (version : Version maxDigits) :
    ∃ epoch rest number,
      (splitOnce ':' version.text).getD (['0'], version.text) =
          (epoch, rest) ∧
        intOrZero maxDigits epoch = .ok ((number : Nat) : Int) ∧
          parse version.text = splitRevision number rest ∧
            rest <:+: version.text := by
  cases split : splitOnce ':' version.text with
  | none =>
      have parsed : parse version.text = splitRevision 0 version.text := by
        rw [parse, split]
      have zero : intOrZero maxDigits ['0'] = .ok ((0 : Nat) : Int) := by
        apply intOrZero_eq
        · exact List.forall_mem_singleton.2 (by decide)
        · exact Nat.eq_zero_or_pos maxDigits
      exact ⟨_, _, 0, rfl, zero, parsed, List.infix_refl _⟩
  | some parts =>
      rcases parts with ⟨epoch, rest⟩
      have whole := eq_of_splitOnce split
      have solid : ∀ char ∈ epoch, char.isDigit = true := by
        rcases version.epoch epoch rest split with rfl | numeral
        · exact List.forall_mem_nil _
        · exact numeral.2
      have inText : epoch <:+: version.text := by
        rw [whole]
        exact (List.prefix_append epoch _).isInfix
      have behind : rest <:+: version.text := by
        rw [whole]
        exact
          ((List.suffix_cons ':' rest).trans
            (List.suffix_append epoch _)).isInfix
      have parsed :
          parse version.text = splitRevision (decimalValue epoch) rest := by
        rw [parse, split]
      exact
        ⟨epoch, rest, decimalValue epoch, rfl,
          intOrZero_eq solid (version.short epoch inText solid), parsed,
          behind⟩

/-- The key of a version is what the reference parses, but for a revision. -/
theorem versionKey_eq (version : Version maxDigits) :
    ∃ revision,
      versionKey maxDigits version.text =
          .ok
            (((parse version.text).epoch : Int),
              (parse version.text).upstream, revision) ∧
        IsRevision revision (parse version.text).revision ∧
          (parse version.text).upstream <:+: version.text ∧
            revision <:+: version.text := by
  rcases epoch_eq version with ⟨epoch, rest, number, split, read, parsed, behind⟩
  rcases splitRevision_eq number rest with
    ⟨upstream, revision, parts, isEpoch, isUpstream, isRevision,
      upstreamInfix, revisionInfix⟩
  rw [← parsed] at isEpoch isUpstream isRevision
  refine
    ⟨revision, ?_, isRevision, ?_, revisionInfix.trans behind⟩
  · rw [versionKey, split]
    dsimp only
    rw [parts]
    dsimp only
    rw [read, isEpoch, isUpstream]
    rfl
  · rw [isUpstream]
    exact upstreamInfix.trans behind

/-! ## Versions in order -/

/-- Two versions are compared as the reference compares them. -/
theorem compareVersions_ends (a b : Version maxDigits) :
    ∃ difference,
      (∀ turns, a.text.length + b.text.length ≤ turns →
        compareVersions maxDigits turns a.text b.text = .ok difference) ∧
        sign difference = compareVersion a.text b.text := by
  rcases versionKey_eq a with
    ⟨aRevision, aKey, isARevision, aUpstreamInfix, aRevisionInfix⟩
  rcases versionKey_eq b with
    ⟨bRevision, bKey, isBRevision, bUpstreamInfix, bRevisionInfix⟩
  rcases comparePart_ends (a.short.of_infix aUpstreamInfix)
      (b.short.of_infix bUpstreamInfix) with
    ⟨upstream, upstreamEnds, upstreamSign⟩
  rcases comparePart_ends (a.short.of_infix aRevisionInfix)
      (b.short.of_infix bRevisionInfix) with
    ⟨revision, revisionEnds, revisionSign⟩
  have upstreamFits :=
    Nat.add_le_add aUpstreamInfix.length_le bUpstreamInfix.length_le
  have revisionFits :=
    Nat.add_le_add aRevisionInfix.length_le bRevisionInfix.length_le
  have reference :
      compareVersion a.text b.text =
        (sign
              (((parse a.text).epoch : Int) - (parse b.text).epoch)).then
          ((sign upstream).then (sign revision)) := by
    rw [sign_natCast_sub, upstreamSign, revisionSign,
      comparePart_of_isRevision isARevision isBRevision]
    rfl
  rw [reference]
  -- The epochs decide, or else the upstream versions, or the revisions.
  by_cases epochs :
      ((parse a.text).epoch : Int) - (parse b.text).epoch = 0
  · rw [sign_eq_eq_iff.2 epochs, Ordering.eq_then]
    by_cases upstreams : upstream = 0
    · rw [sign_eq_eq_iff.2 upstreams, Ordering.eq_then]
      refine ⟨revision, ?_, rfl⟩
      intro turns enough
      have continued :=
        upstreamEnds turns (upstreamFits.trans enough)
      rw [compareVersions, aKey, bKey]
      refine (if_neg (not_not.2 epochs)).trans ?_
      rw [continued]
      refine (if_neg (not_not.2 upstreams)).trans ?_
      exact revisionEnds turns (revisionFits.trans enough)
    · rw [sign_then upstreams]
      refine ⟨upstream, ?_, rfl⟩
      intro turns enough
      rw [compareVersions, aKey, bKey]
      refine (if_neg (not_not.2 epochs)).trans ?_
      rw [upstreamEnds turns (upstreamFits.trans enough)]
      exact if_pos upstreams
  · rw [sign_then epochs]
    refine ⟨_, ?_, rfl⟩
    intro turns enough
    rw [compareVersions, aKey, bKey]
    exact if_pos epochs

/-! ## The newest candidate -/

section

variable
    {Entry : Type} {known : Entry → Version maxDigits}

/-- How the candidates are ordered. -/
def compareKnown (known : Entry → Version maxDigits) (left right : Entry) :
    Ordering :=
  compareVersion (known left).text (known right).text

instance : TransCmp (compareKnown known) :=
  transCmp_comap fun entry => (known entry).text

/-- The loop of `max` keeps the first of the newest candidates. -/
theorem foldlM_newer
    {best : Entry} {entries : List Entry}
    (enough : ∀ left ∈ best :: entries, ∀ right ∈ best :: entries,
      (known left).text.length + (known right).text.length ≤ turns) :
    entries.foldlM
        (newer (fun entry => (known entry).text) maxDigits turns) best =
      .ok (maximumFrom (compareKnown known) best entries) := by
  induction entries generalizing best with
  | nil => rfl
  | cons entry entries induction =>
      rcases compareVersions_ends (known entry) (known best) with
        ⟨difference, ends, isSign⟩
      have compared :=
        ends turns
          (enough entry (List.mem_cons_of_mem _ List.mem_cons_self) best
            List.mem_cons_self)
      have step :
          newer (fun entry => (known entry).text) maxDigits turns best entry =
            .ok
              (if compareKnown known entry best = .gt then entry else best) := by
        rw [newer, compared, compareKnown, ← isSign]
        have above : sign difference = .gt ↔ 0 < difference :=
          Int.compare_eq_gt
        simp only [above]
        rfl
      have kept :
          (if compareKnown known entry best = .gt then entry else best) ∈
            [best, entry] := by
        split
        · exact List.mem_cons_of_mem _ List.mem_cons_self
        · exact List.mem_cons_self
      have inside :
          ∀ item ∈
              (if compareKnown known entry best = .gt then entry else best) ::
                entries,
            item ∈ best :: entry :: entries := by
        intro item member
        rcases List.mem_cons.1 member with rfl | later
        · exact List.mem_append_left entries kept
        · exact List.mem_cons_of_mem _ (List.mem_cons_of_mem _ later)
      rw [List.foldlM_cons, step]
      refine (induction ?_).trans ?_
      · intro left inLeft right inRight
        exact enough left (inside left inLeft) right (inside right inRight)
      · rw [maximumFrom, maximumFrom, List.foldl_cons]

/-- The newest of some candidates is one of them that no other is above. -/
theorem candidate_eq
    {entries : List Entry} (nonempty : entries ≠ [])
    (enough : ∀ left ∈ entries, ∀ right ∈ entries,
      (known left).text.length + (known right).text.length ≤ turns) :
    ∃ best entry rest,
      entries = entry :: rest ∧
        best = maximumFrom (compareKnown known) entry rest ∧
          candidate (fun entry => (known entry).text) maxDigits turns entries =
            .ok best := by
  cases entries with
  | nil => exact absurd rfl nonempty
  | cons entry rest => exact ⟨_, entry, rest, rfl, rfl, foldlM_newer enough⟩

end

end

/-! ## Versions are ordered -/

/-- The difference of two versions, as the comparison ends with it. -/
def IsDifference (maxDigits : Nat)
    (difference : Version maxDigits → Version maxDigits → Int) : Prop :=
  ∀ (a b : Version maxDigits) (turns : Nat),
    a.text.length + b.text.length ≤ turns →
      compareVersions maxDigits turns a.text b.text = .ok (difference a b)

/-- The newest candidate is a maximum, whatever order the candidates are in. -/
def PicksMaximum (maxDigits : Nat)
    (difference : Version maxDigits → Version maxDigits → Int) : Prop :=
  ∀ (Entry : Type) (known : Entry → Version maxDigits)
    (entries others : List Entry) (turns : Nat),
    entries ≠ [] → others.Perm entries →
      (∀ left ∈ entries, ∀ right ∈ entries,
        (known left).text.length + (known right).text.length ≤ turns) →
        ∃ best other,
          candidate (fun entry => (known entry).text) maxDigits turns
                entries =
              .ok best ∧
            candidate (fun entry => (known entry).text) maxDigits turns
                  others =
                .ok other ∧
              best ∈ entries ∧
                (∀ entry ∈ entries,
                  difference (known entry) (known best) ≤ 0) ∧
                  difference (known other) (known best) = 0

theorem sign_isLE_iff {difference : Int} :
    (sign difference).isLE ↔ difference ≤ 0 := by
  rw [Ordering.isLE_iff_ne_gt, sign, Int.compare_eq_gt]
  exact Int.not_lt

theorem picksMaximum
    {maxDigits : Nat}
    {difference : Version maxDigits → Version maxDigits → Int}
    (agrees : ∀ a b,
      sign (difference a b) = compareVersion a.text b.text) :
    PicksMaximum maxDigits difference := by
  intro Entry known entries others turns nonempty perm enough
  have othersNonempty : others ≠ [] := by
    rintro rfl
    exact nonempty perm.nil_eq.symm
  have othersEnough :
      ∀ left ∈ others, ∀ right ∈ others,
        (known left).text.length + (known right).text.length ≤ turns :=
    fun left inLeft right inRight =>
      enough left (perm.mem_iff.1 inLeft) right (perm.mem_iff.1 inRight)
  rcases candidate_eq nonempty enough with ⟨best, entry, rest, rfl, rfl, picked⟩
  rcases candidate_eq othersNonempty othersEnough with
    ⟨other, otherEntry, otherRest, rfl, rfl, otherPicked⟩
  refine ⟨_, _, picked, otherPicked, maximumFrom_mem entry rest, ?_, ?_⟩
  · intro item member
    have below :=
      @isLE_maximumFrom _ (compareKnown known) _ entry rest item member
    rw [compareKnown, ← agrees] at below
    exact sign_isLE_iff.1 below
  · have equal :=
      @compare_maximumFrom_perm _ (compareKnown known) _ _ _ _ _ perm
    rw [compareKnown, ← agrees] at equal
    exact sign_eq_eq_iff.1 equal

/--
The comparison ends on all versions, on the side of zero where the reference
puts them; it is a total preorder, and candidates are picked by it.
-/
theorem versions_ordered (maxDigits : Nat) :
    ∃ difference : Version maxDigits → Version maxDigits → Int,
      IsDifference maxDigits difference ∧
        (∀ a b, sign (difference a b) = compareVersion a.text b.text) ∧
          (∀ a b, sign (difference b a) = (sign (difference a b)).swap) ∧
            (∀ a b, difference a b ≤ 0 ∨ difference b a ≤ 0) ∧
              (∀ a b c, difference a b ≤ 0 → difference b c ≤ 0 →
                difference a c ≤ 0) ∧
                PicksMaximum maxDigits difference := by
  choose difference ends agrees using
    fun a b : Version maxDigits => compareVersions_ends a b
  have swapped :
      ∀ a b, sign (difference b a) = (sign (difference a b)).swap := by
    intro a b
    rw [agrees, agrees]
    exact OrientedCmp.eq_swap
  refine ⟨difference, ends, agrees, swapped, ?_, ?_, picksMaximum agrees⟩
  · intro a b
    by_contra neither
    rw [not_or, Int.not_le, Int.not_le] at neither
    have opposite := swapped a b
    rw [sign, sign, Int.compare_eq_gt.2 neither.1,
      Int.compare_eq_gt.2 neither.2] at opposite
    cases opposite
  · intro a b c first second
    rw [← sign_isLE_iff, agrees] at first second ⊢
    exact TransCmp.isLE_trans first second

/-- A candidate release is older than the release, and an epoch is above. -/
example :
    compareVersions 4300 20 "1.0~rc1-1".toList "1.0-1".toList = .ok (-1) ∧
      compareVersions 4300 20 "1:0.9".toList "2.0-1".toList = .ok 1 ∧
        compareVersions 4300 20 "1.0".toList "1.0-0".toList = .ok 0 := by
  decide

end Confos.Apt.CompareVersions
