import Confos.Library.Fallible

/-!
# JSON as Python reads it

The reader of `json.loads`, one character at a time.  Besides the errors of
the format it has two of the interpreter's own: an integer of too many digits
and containers nested too deeply.
-/

namespace Confos.Library.Json

open Confos.Library.Fallible

/-- A string; an escape may name half of a surrogate pair alone. -/
abbrev CodePoints := List Nat

/-- What a text denotes; numbers are kept as they are written. -/
inductive Value
  | null
  | boolean (value : Bool)
  | number (literal : List Char)
  | string (codes : CodePoints)
  | array (items : List Value)
  | object (members : List (CodePoints × Value))

abbrev Members := List (CodePoints × Value)

/-- A key that occurs again keeps its place and takes the later value. -/
def setMember (members : Members) (key : CodePoints) (value : Value) : Members :=
  if members.any (·.1 == key) then
    members.map fun member => if member.1 = key then (key, value) else member
  else
    members ++ [(key, value)]

/-- What the interpreter bears: digits of an integer, nested containers. -/
structure Limits where
  digits : Nat
  depth : Nat

inductive Failure
  /-- `json.JSONDecodeError`. -/
  | decode
  /-- `ValueError` of `int`, or `RecursionError`. -/
  | interpreter
deriving DecidableEq

/-! ## The states of the reader -/

/-- What encloses the value being read. -/
inductive Frame
  | array (items : List Value)
  | object (members : Members) (key : CodePoints)

/-- What a string is read for. -/
inductive StringUse
  | value
  | key (members : Members)

inductive NumberPhase
  | minus
  | zero
  | digits
  | point
  | fraction
  | exponent
  | exponentSign
  | exponentDigits

/-- A number so far: its literal and the digits of its integer part. -/
structure NumberState where
  phase : NumberPhase
  literal : List Char
  digits : Nat
  isFloat : Bool

/-- A string so far, and whether its last code awaits its second half. -/
structure StringState where
  use : StringUse
  codes : CodePoints
  halved : Bool

inductive Phase
  | value
  | firstItem
  | firstKey
  | nextKey (members : Members)
  | colon (members : Members) (key : CodePoints)
  | ended (value : Value)
  | string (state : StringState)
  | escape (state : StringState)
  | unicode (state : StringState) (missing code : Nat)
  | literal (rest : List Char) (value : Value)
  | number (state : NumberState)

structure State where
  frames : List Frame
  phase : Phase

/-- The space between tokens. -/
def isBlank (char : Char) : Bool :=
  char = ' ' || char = '\t' || char = '\n' || char = '\r'

def isDigit (char : Char) : Bool :=
  '0' ≤ char && char ≤ '9'

/-! ## Strings -/

/-- A code behind what has been read; it may complete the last one. -/
def StringState.push (state : StringState) (code : Nat) : StringState :=
  { state with codes := state.codes ++ [code], halved := false }

/-- An escaped code: two halves of a pair in a row are one code. -/
def StringState.pushEscaped (state : StringState) (code : Nat) :
    StringState :=
  if state.halved ∧ 0xDC00 ≤ code ∧ code < 0xE000 then
    { state with
      codes :=
        state.codes.dropLast ++
          [0x10000 + (state.codes.getLastD 0 - 0xD800) * 0x400 +
            (code - 0xDC00)]
      halved := false }
  else
    { state with
      codes := state.codes ++ [code]
      halved := 0xD800 ≤ code && code < 0xDC00 }

/-- What the quote behind a string leads to. -/
def StringState.close (state : StringState) : Phase :=
  match state.use with
  | .value => .ended (.string state.codes)
  | .key members => .colon members state.codes

def stringStep (state : StringState) (char : Char) : Except Failure Phase :=
  if char = '"' then
    .ok state.close
  else if char = '\\' then
    .ok (.escape state)
  else if char.toNat < 0x20 then
    .error .decode
  else
    .ok (.string (state.push char.toNat))

def escapeStep (state : StringState) (char : Char) : Except Failure Phase :=
  match char with
  | '"' | '\\' | '/' => .ok (.string (state.push char.toNat))
  | 'b' => .ok (.string (state.push 8))
  | 'f' => .ok (.string (state.push 12))
  | 'n' => .ok (.string (state.push 10))
  | 'r' => .ok (.string (state.push 13))
  | 't' => .ok (.string (state.push 9))
  | 'u' => .ok (.unicode state 4 0)
  | _ => .error .decode

def hexValue (char : Char) : Option Nat :=
  if isDigit char then
    some (char.toNat - '0'.toNat)
  else if 'a' ≤ char ∧ char ≤ 'f' then
    some (char.toNat - 'a'.toNat + 10)
  else if 'A' ≤ char ∧ char ≤ 'F' then
    some (char.toNat - 'A'.toNat + 10)
  else
    none

def unicodeStep (state : StringState) (missing code : Nat) (char : Char) :
    Except Failure Phase :=
  match hexValue char with
  | none => .error .decode
  | some digit =>
      if missing ≤ 1 then
        .ok (.string (state.pushEscaped (code * 16 + digit)))
      else
        .ok (.unicode state (missing - 1) (code * 16 + digit))

/-! ## Numbers -/

/-- The state behind one more character of a number, if it is one. -/
def NumberState.next (state : NumberState) (char : Char) :
    Option NumberState :=
  let move (phase : NumberPhase) : Option NumberState :=
    some { state with phase := phase, literal := state.literal ++ [char] }
  let first : Option NumberState :=
    some
      { state with
        phase := if char = '0' then .zero else .digits
        literal := state.literal ++ [char]
        digits := 1 }
  let behindInteger : Option NumberState :=
    if char = '.' then move .point
    else if char = 'e' ∨ char = 'E' then move .exponent
    else none
  match state.phase with
  | .minus => if isDigit char then first else none
  | .zero => behindInteger
  | .digits =>
      if isDigit char then
        some
          { state with
            literal := state.literal ++ [char]
            digits := state.digits + 1 }
      else
        behindInteger
  | .point =>
      if isDigit char then
        some
          { state with
            phase := .fraction
            literal := state.literal ++ [char]
            isFloat := true }
      else
        none
  | .fraction =>
      if isDigit char then move .fraction
      else if char = 'e' ∨ char = 'E' then move .exponent
      else none
  | .exponent =>
      if char = '+' ∨ char = '-' then move .exponentSign
      else if isDigit char then
        some
          { state with
            phase := .exponentDigits
            literal := state.literal ++ [char]
            isFloat := true }
      else none
  | .exponentSign =>
      if isDigit char then
        some
          { state with
            phase := .exponentDigits
            literal := state.literal ++ [char]
            isFloat := true }
      else
        none
  | .exponentDigits => if isDigit char then move .exponentDigits else none

/-- A number ends; `int` refuses too many digits. -/
def NumberState.finish (limits : Limits) (state : NumberState) :
    Except Failure Value :=
  match state.phase with
  | .minus => .error .decode
  | .zero | .digits | .fraction | .exponentDigits =>
      if ¬ state.isFloat ∧ limits.digits < state.digits then
        .error .interpreter
      else
        .ok (.number state.literal)
  -- the number ends in front of the unfinished part, which nothing can follow
  | .point | .exponent | .exponentSign =>
      if ¬ state.isFloat ∧ limits.digits < state.digits then
        .error .interpreter
      else
        .error .decode

/-! ## Values -/

/-- The first character of a value. -/
def beginValue (limits : Limits) (frames : List Frame) (char : Char) :
    Except Failure State :=
  let enter (phase : Phase) : Except Failure State :=
    if frames.length < limits.depth then .ok ⟨frames, phase⟩
    else .error .interpreter
  let number (phase : NumberPhase) (digits : Nat) : Except Failure State :=
    .ok ⟨frames, .number ⟨phase, [char], digits, false⟩⟩
  match char with
  | '"' => .ok ⟨frames, .string ⟨.value, [], false⟩⟩
  | '[' => enter .firstItem
  | '{' => enter .firstKey
  | 't' => .ok ⟨frames, .literal "rue".toList (.boolean true)⟩
  | 'f' => .ok ⟨frames, .literal "alse".toList (.boolean false)⟩
  | 'n' => .ok ⟨frames, .literal "ull".toList .null⟩
  | 'N' => .ok ⟨frames, .literal "aN".toList (.number "NaN".toList)⟩
  | 'I' =>
      .ok ⟨frames, .literal "nfinity".toList (.number "Infinity".toList)⟩
  | '-' => number .minus 0
  | '0' => number .zero 1
  | _ => if isDigit char then number .digits 1 else .error .decode

/-- The first character behind a value and the space behind it. -/
def afterValue (frames : List Frame) (value : Value) (char : Char) :
    Except Failure State :=
  match frames with
  | [] => .error .decode
  | .array items :: frames =>
      if char = ',' then
        .ok ⟨.array (items ++ [value]) :: frames, .value⟩
      else if char = ']' then
        .ok ⟨frames, .ended (.array (items ++ [value]))⟩
      else
        .error .decode
  | .object members key :: frames =>
      if char = ',' then
        .ok ⟨frames, .nextKey (setMember members key value)⟩
      else if char = '}' then
        .ok ⟨frames, .ended (.object (setMember members key value))⟩
      else
        .error .decode

/-- Behind a complete value. -/
def endedStep (frames : List Frame) (value : Value) (char : Char) :
    Except Failure State :=
  if isBlank char then .ok ⟨frames, .ended value⟩
  else afterValue frames value char

def step (limits : Limits) (state : State) (char : Char) :
    Except Failure State :=
  let frames := state.frames
  match state.phase with
  | .value =>
      if isBlank char then .ok state else beginValue limits frames char
  | .firstItem =>
      if isBlank char then .ok state
      else if char = ']' then .ok ⟨frames, .ended (.array [])⟩
      else beginValue limits (.array [] :: frames) char
  | .firstKey =>
      if isBlank char then .ok state
      else if char = '}' then .ok ⟨frames, .ended (.object [])⟩
      else if char = '"' then .ok ⟨frames, .string ⟨.key [], [], false⟩⟩
      else .error .decode
  | .nextKey members =>
      if isBlank char then .ok state
      else if char = '"' then
        .ok ⟨frames, .string ⟨.key members, [], false⟩⟩
      else .error .decode
  | .colon members key =>
      if isBlank char then .ok state
      else if char = ':' then .ok ⟨.object members key :: frames, .value⟩
      else .error .decode
  | .ended value => endedStep frames value char
  | .string reading => (stringStep reading char).map fun next => ⟨frames, next⟩
  | .escape reading => (escapeStep reading char).map fun next => ⟨frames, next⟩
  | .unicode reading missing code =>
      (unicodeStep reading missing code char).map fun next => ⟨frames, next⟩
  | .literal [] value => endedStep frames value char
  | .literal [last] value =>
      if char = last then .ok ⟨frames, .ended value⟩ else .error .decode
  | .literal (expected :: rest) value =>
      if char = expected then .ok ⟨frames, .literal rest value⟩
      else .error .decode
  | .number reading =>
      match reading.next char with
      | some next => .ok ⟨frames, .number next⟩
      -- the one literal that begins like a number
      | none =>
          match reading.phase with
          | .minus =>
              if char = 'I' then
                .ok
                  ⟨frames,
                    .literal "nfinity".toList (.number "-Infinity".toList)⟩
              else
                .error .decode
          | _ => do
              let value ← reading.finish limits
              endedStep frames value char

/-- What a text denotes that ends in a state. -/
def finish (limits : Limits) (state : State) : Except Failure Value :=
  match state.frames, state.phase with
  | [], .ended value => .ok value
  | _, .number reading => do
      let value ← reading.finish limits
      if state.frames.isEmpty then .ok value else .error .decode
  | _, _ => .error .decode

/-- `json.loads` of a text. -/
def loads (limits : Limits) (text : List Char) : Except Failure Value := do
  finish limits (← text.foldlM (step limits) ⟨[], .value⟩)

end Confos.Library.Json
