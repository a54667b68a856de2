import Confos.Library.Fallible
import Confos.Library.Text

/-!
# What the fragments asked for

`checkFragmentOptions` reads the fragments of a kernel configuration in merge
order and compares what they ask for with the resolved `.config`.  One pass
over the lines fills four maps; three checks over the maps follow.
-/

namespace Confos.Kernel.FragmentOptions

open Confos.Library.Text

/-- An ordered map whose keys are symbols. -/
abbrev SymbolMap (Value : Type) := Std.TreeMap (List Char) Value

def configStart : List Char := "CONFIG_".toList

/-- The values of the resolved `.config`; of several lines the last counts. -/
def values (config : List Char) : SymbolMap (List Char) :=
  (((lines config).filter configStart.isPrefixOf).filterMap
      (splitOnce '=')).foldl
    (fun values assignment => values.insert assignment.1 assignment.2) ∅

/-- A fragment: its file name and its text. -/
structure Fragment where
  name : String
  body : List Char
deriving DecidableEq, Repr

inductive Request where
  | on (name : String)
  | off (name : String)
  | forced (name : String)
deriving DecidableEq, Repr

inductive SubmittedRequest where
  | on
  | off
  | scalar
deriving DecidableEq, Repr

def validSymbol (symbol : List Char) : Bool :=
  match stripStart configStart symbol with
  | none => false
  | some name =>
      !name.isEmpty &&
        name.all fun char => char.isAlphanum || char = '_'

/-! ## One line -/

/-- What a line of a fragment says. -/
inductive Entry where
  | assign (symbol value : List Char)
  | unset (symbol : List Char)
  | force (symbol : List Char)
deriving DecidableEq, Repr

/-- A value that starts like a boolean in any case. -/
def booleanLike (value : List Char) : Bool :=
  match value.dropWhile isWhiteSpace with
  | [] => false
  | char :: _ => char.toLower ∈ ['y', 'm', 'n']

def unsetLine (symbol : List Char) : List Char :=
  "# ".toList ++ symbol ++ " is not set".toList

def forceLine (symbol : List Char) : List Char :=
  "# ".toList ++ symbol ++ " is forced on".toList

def Entry.symbol : Entry → List Char
  | .assign symbol _ => symbol
  | .unset symbol => symbol
  | .force symbol => symbol

/-- The line that spells an entry. -/
def Entry.line : Entry → List Char
  | .assign symbol value => symbol ++ '=' :: value
  | .unset symbol => unsetLine symbol
  | .force symbol => forceLine symbol

/-- The symbol of a comment that is shaped like a marker, and which one. -/
def markerOf (comment : List Char) : Option (List Char × Bool) :=
  match words comment with
  | symbol :: first :: second :: third :: _ =>
      if configStart.isPrefixOf symbol then
        if [first, second, third] = ["is", "not", "set"].map (·.toList) then
          some (symbol, false)
        else if
            [first, second, third] =
              ["is", "forced", "on"].map (·.toList) then
          some (symbol, true)
        else
          none
      else
        none
  | _ => none

section

variable (debug : List Char → String)

/-- A line that trims to an assignment. -/
def classifyAssignment (name : String) (line : List Char) :
    Except String Entry :=
  if line ≠ trim line then
    .error s!"{name}: ineffective request {debug line}; config assignments must start in column 0 and have no surrounding whitespace"
  else
    match splitOnce '=' line with
    | none =>
        .error s!"{name}: ineffective request {debug line}; expected `CONFIG_SYMBOL=value`"
    | some (symbol, value) =>
        if validSymbol symbol = false then
          .error s!"{name}: ineffective request {debug line}; config symbols must match `CONFIG_[A-Za-z0-9_]+`"
        else if value ∉ [['y'], ['m'], ['n']] ∧ booleanLike value = true then
          let shown := String.ofList symbol
          .error s!"{name}: non-canonical boolean value in {debug line}; use exactly `{shown}=y`, `{shown}=m`, or `{shown}=n`"
        else
          .ok (.assign symbol value)

/-- A comment that is shaped like a marker. -/
def classifyMarker
    (name : String) (line symbol : List Char) (isForced : Bool) :
    Except String Entry :=
  let canonical := if isForced then forceLine symbol else unsetLine symbol
  if validSymbol symbol = false then
    .error s!"{name}: ineffective request {debug line}; config symbols must match `CONFIG_[A-Za-z0-9_]+`"
  else if line ≠ canonical then
    .error s!"{name}: ineffective request {debug line}; use the exact spelling {debug canonical}"
  else
    .ok (if isForced then .force symbol else .unset symbol)

/-- What a line says, if anything, or why it is refused. -/
def classifyLine (name : String) (line : List Char) :
    Except String (Option Entry) :=
  if configStart.isPrefixOf (trim line) then
    (classifyAssignment debug name line).map some
  else
    match trim line with
    | '#' :: comment =>
        match markerOf comment with
        | none => .ok none
        | some (symbol, isForced) =>
            (classifyMarker debug name line symbol isForced).map some
    | _ => .ok none

/-! ## The pass over the lines -/

/-- The four maps. -/
structure Requests where
  requested : SymbolMap Request
  submitted : SymbolMap SubmittedRequest
  onPins : SymbolMap (String × List Char)
  forced : SymbolMap String

def Requests.empty : Requests where
  requested := ∅
  submitted := ∅
  onPins := ∅
  forced := ∅

/-- The updates of the maps; a pin and a marker are kept once. -/
def Requests.record (requests : Requests) (name : String) :
    Entry → Requests
  | .assign symbol value =>
      if value = ['y'] ∨ value = ['m'] then
        { requests with
          submitted := requests.submitted.insert symbol .on
          onPins := requests.onPins.insertIfNew symbol (name, value)
          requested := requests.requested.insert symbol (.on name) }
      else if value = ['n'] then
        { requests with
          submitted := requests.submitted.insert symbol .off
          requested := requests.requested.insert symbol (.off name) }
      else
        { requests with
          submitted := requests.submitted.insert symbol .scalar }
  | .unset symbol =>
      { requests with
        submitted := requests.submitted.insert symbol .off
        requested := requests.requested.insert symbol (.off name) }
  | .force symbol =>
      { requests with
        forced := requests.forced.insertIfNew symbol name }

def Requests.recordLine
    (requests : Requests) (name : String) : Option Entry → Requests
  | none => requests
  | some entry => requests.record name entry

def readLine (name : String) (requests : Requests) (line : List Char) :
    Except String Requests :=
  (classifyLine debug name line).map (requests.recordLine name)

def readFragments (fragments : List Fragment) : Except String Requests :=
  fragments.foldlM
    (fun requests fragment =>
      (lines fragment.body).foldlM (readLine debug fragment.name) requests)
    Requests.empty

/-! ## The checks over the maps -/

def pinConflict (requests : Requests) (marker : List Char × String) :
    Option String :=
  requests.onPins[marker.1]?.map fun pin =>
    let symbol := String.ofList marker.1
    s!"  - {marker.2}: {symbol} asserted forced on, but {pin.1} pins {symbol}={String.ofList pin.2}"

def missingOffRequest (requests : Requests) (marker : List Char × String) :
    Option String :=
  if requests.submitted[marker.1]? = some .off then
    none
  else
    some s!"  - {marker.2}: {String.ofList marker.1} asserted forced on without an effective off request"

/-- The final requests, a marker in the place of its off request. -/
def finalRequests (requests : Requests) : SymbolMap Request :=
  requests.forced.toList.foldl
    (fun requested marker => requested.insert marker.1 (.forced marker.2))
    requests.requested

def mismatch (resolved : SymbolMap (List Char))
    (request : List Char × Request) : Option String :=
  let symbol := String.ofList request.1
  match request.2, resolved[request.1]? with
  | .on name, some value =>
      if value = ['y'] then
        none
      else
        some s!"  - {name}: {symbol} requested on, got {symbol}={String.ofList value}"
  | .on name, none =>
      some s!"  - {name}: {symbol} requested on, dropped"
  | .off _, none => none
  | .off name, some value =>
      some s!"  - {name}: {symbol} requested off, got {symbol}={String.ofList value}"
  | .forced name, some value =>
      if value = ['y'] then
        none
      else
        some s!"  - {name}: {symbol} asserted forced on, got {symbol}={String.ofList value}"
  | .forced name, none =>
      some s!"  - {name}: {symbol} asserted forced on, resolved off (forcing gone; drop the assertion and keep the off request)"

def joinLines (texts : List String) : String :=
  "\n".intercalate texts

def checkRequests (requests : Requests) (resolved : SymbolMap (List Char)) :
    Except String Unit :=
  let pinConflicts := requests.forced.toList.filterMap (pinConflict requests)
  let missingOffRequests :=
    requests.forced.toList.filterMap (missingOffRequest requests)
  let mismatches :=
    (finalRequests requests).toList.filterMap (mismatch resolved)
  if pinConflicts ≠ [] then
    .error s!"forced-on assertions must not have an =y/=m pin in any fragment; the pin would keep the symbol on and hide a vanished forcing chain:\n{joinLines pinConflicts}"
  else if missingOffRequests ≠ [] then
    .error s!"forced-on assertions must be paired with a final `# CONFIG_X is not set` or `CONFIG_X=n` request; otherwise a default-y symbol can satisfy the assertion after its forcing chain disappears:\n{joinLines missingOffRequests}"
  else if mismatches ≠ [] then
    .error s!"kernel options requested in a config fragment do not match the resolved .config (olddefconfig drops =y requests with unmet dependencies and force-enables `is not set` requests for selected/promptless symbols):\n{joinLines mismatches}\nFix the fragment (add the missing dependency, or unset the selecting symbol / pair its off request with `# CONFIG_X is forced on`) and rebuild."
  else
    .ok ()

def checkFragmentOptions (fragments : List Fragment) (config : List Char) :
    Except String Unit := do
  let requests ← readFragments debug fragments
  checkRequests requests (values config)

end

/-! ## Two fragments -/

/-- A marker in front of its off request, and a request that is retracted. -/
def sampleFragments : List Fragment :=
  [{ name := "base.config"
     body := "# CONFIG_A is forced on\nCONFIG_B=y\nCONFIG_D=42\n".toList },
    { name := "extra.config"
      body := "# CONFIG_A is not set\n# CONFIG_B is not set\n".toList }]

example :
    checkFragmentOptions String.ofList sampleFragments
      "CONFIG_A=y\nCONFIG_D=7\n".toList = .ok () := by
  decide +kernel

example :
    checkFragmentOptions String.ofList sampleFragments
      "CONFIG_A=y\nCONFIG_B=y\n".toList ≠ .ok () := by
  decide +kernel

end Confos.Kernel.FragmentOptions
