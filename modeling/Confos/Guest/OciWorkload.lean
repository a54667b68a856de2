import Confos.Library.JsonEnds
import Confos.Library.Patterns
import Confos.Library.PythonText

/-!
# The workload of a launch

A general-purpose guest reads the image it runs from a line of the launch-bound
`pubkey` file: behind a marker, a JSON object with the image, its arguments and
its environment.
-/

namespace Confos.Guest.OciWorkload

open Confos.Library.Fallible
open Confos.Library.Json
open Confos.Library.Patterns
open Confos.Library.PythonText
open Confos.Library.Text

/-- `MARKER` -/
def marker : List Char :=
  "# confos-oci-workload/v1 ".toList

/-! ## Patterns -/

def times (count : Nat) (inner : Pattern) : Pattern :=
  .all (List.replicate count inner)

def atMost : Nat → Pattern → Pattern
  | 0, _ => .empty
  | count + 1, inner => .opt (.seq inner (atMost count inner))

def isLowerOrDigit (char : Char) : Bool :=
  ('a' ≤ char && char ≤ 'z') || ('0' ≤ char && char ≤ '9')

/-- `[a-z0-9]` -/
def lowerOrDigit : Pattern :=
  .oneOf isLowerOrDigit

/-- `[a-z0-9](?:[a-z0-9-]*[a-z0-9])?` -/
def hostLabel : Pattern :=
  .seq lowerOrDigit <|
    .opt <|
      .seq (.star (.oneOf fun char => isLowerOrDigit char || char = '-'))
        lowerOrDigit

/-- `:[0-9]{1,5}` -/
def port : Pattern :=
  .seq (.char ':')
    (.seq (.oneOf Char.isDigit) (atMost 4 (.oneOf Char.isDigit)))

/-- A registry: a host with a dot, `localhost`, or a host with a port. -/
def registry : Pattern :=
  .alt
    (.seq hostLabel
      (.seq (.plus (.seq (.char '.') hostLabel)) (.opt port)))
    (.alt (.seq (.text "localhost".toList) (.opt port))
      (.seq hostLabel port))

/-- `/[a-z0-9]+(?:(?:[._]|__|-+)[a-z0-9]+)*` -/
def pathPart : Pattern :=
  .seq (.char '/') <|
    .seq (.plus lowerOrDigit) <|
      .star <|
        .seq
          (.alt (.oneOf fun char => char = '.' || char = '_')
            (.alt (.text "__".toList) (.plus (.char '-'))))
          (.plus lowerOrDigit)

/-- `REFERENCE` -/
def reference : Pattern :=
  .seq registry <|
    .seq (.plus pathPart) <|
      .seq (.text "@sha256:".toList) <|
        times 64 <|
          .oneOf fun char =>
            ('0' ≤ char && char ≤ '9') || ('a' ≤ char && char ≤ 'f')

/-- `ENV_NAME` -/
def envName : Pattern :=
  .seq (.oneOf fun char => char.isAlpha || char = '_')
    (.star (.oneOf fun char => char.isAlphanum || char = '_'))

/-! ## The rules -/

/-- What `workload` returns. -/
structure Workload where
  image : CodePoints
  command : List CodePoints
  env : List (CodePoints × CodePoints)
deriving DecidableEq

def codesOf (text : String) : CodePoints :=
  text.toList.map Char.toNat

/-- A string for a pattern; half a pair is a character that none accepts. -/
def asText (codes : CodePoints) : List Char :=
  codes.map Char.ofNat

/-- `dict.get` -/
def get (members : Members) (key : String) : Option Value :=
  (members.find? (·.1 = codesOf key)).map (·.2)

def asString : Value → Option CodePoints
  | .string codes => some codes
  | _ => none

def checkImage (members : Members) : Except String CodePoints :=
  match get members "image" with
  | some (.string codes) =>
      if fullmatch reference (asText codes) then
        .ok codes
      else
        .error
          "the workload image must be <registry>/<repository>@sha256:<digest>"
  | _ =>
      .error
        "the workload image must be <registry>/<repository>@sha256:<digest>"

def checkCommand (members : Members) : Except String (List CodePoints) :=
  match (get members "command").getD (.array []) with
  | .array items =>
      match items.mapM asString with
      | some command => .ok command
      | none => .error "the workload command must be a list of strings"
  | _ => .error "the workload command must be a list of strings"

/-- A variable: a name that is one, and a value without NUL. -/
def checkVariable (member : CodePoints × Value) :
    Option (CodePoints × CodePoints) :=
  match member.2 with
  | .string codes =>
      if fullmatch envName (asText member.1) && !codes.contains 0 then
        some (member.1, codes)
      else
        none
  | _ => none

def checkEnv (members : Members) :
    Except String (List (CodePoints × CodePoints)) :=
  match (get members "env").getD (.object []) with
  | .object pairs =>
      match pairs.mapM checkVariable with
      | some env => .ok env
      | none => .error "the workload env must map variable names to strings"
  | _ => .error "the workload env must map variable names to strings"

def isKnown (key : CodePoints) : Bool :=
  key = codesOf "image" || key = codesOf "command" || key = codesOf "env"

/-- The rules for the object behind the marker. -/
def checkSpec (value : Value) : Except String Workload :=
  match value with
  | .object members =>
      if members.all fun member => isKnown member.1 then do
        let image ← checkImage members
        let command ← checkCommand members
        let env ← checkEnv members
        return { image, command, env }
      else
        .error "the workload is an object of image, command and env"
  | _ => .error "the workload is an object of image, command and env"

/-! ## What the rules ask for -/

/-- The workload that the members of an object name. -/
structure Names (members : Members) (workload : Workload) : Prop where
  known : ∀ member ∈ members, isKnown member.1 = true
  image :
    get members "image" = some (.string workload.image) ∧
      fullmatch reference (asText workload.image) = true
  command :
    (get members "command").getD (.array []) =
      .array (workload.command.map .string)
  env :
    (get members "env").getD (.object []) =
      .object (workload.env.map fun pair => (pair.1, .string pair.2))
  variablesFit :
    ∀ pair ∈ workload.env,
      fullmatch envName (asText pair.1) = true ∧ 0 ∉ pair.2

theorem checkImage_eq_ok {members : Members} {image : CodePoints} :
    checkImage members = .ok image ↔
      get members "image" = some (.string image) ∧
        fullmatch reference (asText image) = true := by
  rw [checkImage]
  split
  · next codes found =>
      rw [found]
      split
      · next fits =>
          constructor
          · intro same
            cases same
            exact ⟨rfl, fits⟩
          · rintro ⟨same, -⟩
            cases same
            rfl
      · next unfit =>
          constructor
          · intro impossible
            cases impossible
          · rintro ⟨same, fits⟩
            cases same
            exact absurd fits unfit
  · next other =>
      constructor
      · intro impossible
        cases impossible
      · rintro ⟨found, -⟩
        exact absurd found (other image)

theorem checkCommand_eq_ok {members : Members} {command : List CodePoints} :
    checkCommand members = .ok command ↔
      (get members "command").getD (.array []) =
        .array (command.map .string) := by
  have inverse :
      ∀ item codes, asString item = some codes ↔
        item = .string codes ∧ True := by
    intro item codes
    cases item with
    | string other => simp [asString]
    | _ => simp [asString]
  rw [checkCommand]
  split
  · next items found =>
      rw [found, Value.array.injEq]
      have read := @mapM_eq_some_iff _ _ _ _ _ inverse items command
      simp only [implies_true, and_true] at read
      rw [← read]
      split
      · next others mapped =>
          rw [mapped, Except.ok.injEq, Option.some.injEq]
      · next mapped =>
          rw [mapped]
          simp
  · next other =>
      constructor
      · intro impossible
        cases impossible
      · intro found
        exact absurd found (other _)

theorem checkEnv_eq_ok
    {members : Members} {env : List (CodePoints × CodePoints)} :
    checkEnv members = .ok env ↔
      (get members "env").getD (.object []) =
          .object (env.map fun pair => (pair.1, .string pair.2)) ∧
        ∀ pair ∈ env,
          fullmatch envName (asText pair.1) = true ∧ 0 ∉ pair.2 := by
  have inverse :
      ∀ member pair, checkVariable member = some pair ↔
        member = (pair.1, Value.string pair.2) ∧
          (fullmatch envName (asText pair.1) = true ∧ 0 ∉ pair.2) := by
    rintro ⟨name, value⟩ ⟨key, text⟩
    cases value with
    | string codes =>
        simp only [checkVariable]
        split
        · next fits =>
            have both : fullmatch envName (asText name) = true ∧ 0 ∉ codes := by
              simpa using fits
            constructor
            · intro same
              cases same
              exact ⟨rfl, both⟩
            · rintro ⟨same, -⟩
              cases same
              rfl
        · next unfit =>
            constructor
            · intro impossible
              cases impossible
            · rintro ⟨same, fits, clean⟩
              cases same
              exact absurd (by simpa using ⟨fits, clean⟩) unfit
    | _ => simp [checkVariable]
  rw [checkEnv]
  split
  · next pairs found =>
      rw [found, Value.object.injEq, ← mapM_eq_some_iff inverse]
      split
      · next others mapped =>
          rw [mapped, Except.ok.injEq, Option.some.injEq]
      · next mapped =>
          rw [mapped]
          simp
  · next other =>
      constructor
      · intro impossible
        cases impossible
      · rintro ⟨found, -⟩
        exact absurd found (other _)

/-- The rules accept the objects that name a workload, and return it. -/
theorem checkSpec_eq_ok {value : Value} {workload : Workload} :
    checkSpec value = .ok workload ↔
      ∃ members, value = .object members ∧ Names members workload := by
  cases value with
  | object members =>
      rw [checkSpec]
      split
      · next known =>
          rw [List.all_eq_true] at known
          constructor
          · intro checked
            rcases bind_eq_ok.1 checked with ⟨image, imageOk, afterImage⟩
            rcases bind_eq_ok.1 afterImage with
              ⟨command, commandOk, afterCommand⟩
            rcases bind_eq_ok.1 afterCommand with ⟨env, envOk, same⟩
            cases same
            exact
              ⟨members, rfl,
                { known
                  image := checkImage_eq_ok.1 imageOk
                  command := checkCommand_eq_ok.1 commandOk
                  env := (checkEnv_eq_ok.1 envOk).1
                  variablesFit := (checkEnv_eq_ok.1 envOk).2 }⟩
          · rintro ⟨others, same, names⟩
            cases same
            rw [checkImage_eq_ok.2 names.image,
              checkCommand_eq_ok.2 names.command,
              checkEnv_eq_ok.2 ⟨names.env, names.variablesFit⟩]
            rfl
      · next unknown =>
          constructor
          · intro impossible
            cases impossible
          · rintro ⟨others, same, names⟩
            cases same
            exact absurd (List.all_eq_true.2 names.known) unknown
  | _ =>
      constructor
      · intro impossible
        cases impossible
      · rintro ⟨others, impossible, -⟩
        cases impossible

/-! ## Reading the file -/

/-- How `workload` ends: it returns, raises `Invalid`, or lets an exception of
the interpreter through. -/
inductive Outcome where
  | none
  | spec (workload : Workload)
  | invalid (message : String)
  | uncaught
deriving DecidableEq

/-- What is made of the one line; the reader's own words are left out. -/
def readSpec (limits : Limits) (line : List Char) : Outcome :=
  match loads limits line with
  | .error .decode => .invalid "the workload line is not JSON"
  | .error .interpreter => .uncaught
  | .ok value =>
      match checkSpec value with
      | .ok workload => .spec workload
      | .error message => .invalid message

/-- What stands behind the marker in the lines that begin with it. -/
def marked (lines : List (List Char)) : List (List Char) :=
  lines.filterMap (stripStart marker)

/-- `workload` on a file that is there. -/
def workload (limits : Limits) (content : List Char) : Outcome :=
  match marked (splitlines (universalNewlines content)) with
  | [] => .none
  | [line] => readSpec limits line
  | _ => .invalid "the launch bundle names more than one workload"

end Confos.Guest.OciWorkload
