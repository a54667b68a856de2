import Confos.Library.Codes
import Confos.Library.Fallible
import Confos.Library.Json
import Confos.Library.PythonText
import Mathlib.Data.List.Lex
import Mathlib.Data.List.Sort
import Mathlib.Data.Set.Function

/-!
# The attestation endpoint of a general-purpose guest

An answer lists the guest's SSH host keys and carries a quote over one digest
of the caller's nonce and of those keys.  Every field of the digested message
stands behind its length, so the message tells the nonce and the keys.
-/

namespace Confos.Guest.Attest

open Confos.Library
open Confos.Library.ByteStrings
open Confos.Library.Fallible
open Confos.Library.Json
open Confos.Library.PythonText

def label : Bytes := utf8Bytes "confos/ssh-host-keys/v1"
def nonceBytes : Nat := 32
def maxBodyBytes : Nat := 1024

/-- `BadRequest`: the caller's fault. -/
inductive BadRequest
  | notObject
  | unknownField (field : CodePoints)
  | nonceNotString
  | nonceNotBase64
  | nonceLength (length : Nat)
  | gpuNotBoolean

/-- `Unavailable`: this guest's fault. -/
inductive Unavailable
  | notKeyLine (path : String)
  | otherType (path : String) (keyType : List Char)
  | noHostKey (pattern : String)
  | backend (detail : String)

/-- The exceptions of the code that builds an answer. -/
inductive Raised
  | unavailable (fault : Unavailable)
  /-- `struct.error` of a length that does not fit 32 bits. -/
  | structError
  | valueError (message : String)

/-! ## The commitment -/

/-- A field behind its length. -/
def lp (field : Bytes) : Except Raised Bytes :=
  match packBigEndian32 field.length with
  | some length => .ok (length ++ field)
  | none => .error .structError

/-- The message whose digest a quote covers. -/
def encoded (nonce : Bytes) (keyBlobs : List Bytes) : Except Raised Bytes := do
  let labelField ← lp label
  let nonceField ← lp nonce
  let keyFields ← keyBlobs.mapM lp
  return labelField ++ nonceField ++ keyFields.flatten

/-- The 48 bytes a quote for this nonce and these keys commits to. -/
def reportData (sha384 : Bytes → Block 48) (nonce : Bytes)
    (keyBlobs : List Bytes) : Except Raised (Block 48) :=
  if nonce.length ≠ nonceBytes then
    .error
      (.valueError
        s!"nonce must be {nonceBytes} bytes, got {nonce.length}")
  else if keyBlobs.isEmpty then
    .error (.valueError "no host key to commit to")
  else
    (encoded nonce keyBlobs).map sha384

/-! ## The host keys -/

/-- A file under the host keys' pattern; `none` when reading it fails. -/
structure HostKeyFile where
  path : String
  content : Option Bytes

/-- A listed key: its line and its wire encoding. -/
structure HostKey where
  line : List Char
  blob : Bytes

/-- The ASCII bytes of a text that was decoded from ASCII. -/
def asciiBytes (text : List Char) : Bytes :=
  text.map fun char => UInt8.ofNat char.toNat

def readHostKey (file : HostKeyFile) : Except Raised HostKey :=
  match file.content.bind readlineAscii with
  | none => .error (.unavailable (.notKeyLine file.path))
  | some line =>
      match split line with
      | keyType :: encoded :: _ =>
          match b64decode encoded with
          | none => .error (.unavailable (.notKeyLine file.path))
          | some blob => do
              let named ← lp (asciiBytes keyType)
              if blob.take named.length ≠ named then
                throw (.unavailable (.otherType file.path keyType))
              else
                return { line := keyType ++ ' ' :: encoded, blob := blob }
      | _ => .error (.unavailable (.notKeyLine file.path))

/-- Each host public key in the order of the file names. -/
def readHostKeys (pattern : String) (files : List HostKeyFile) :
    Except Raised (List HostKey) := do
  let sorted :=
    files.insertionSort fun left right => left.path ≤ right.path
  let keys ← sorted.mapM readHostKey
  if keys.isEmpty then
    throw (.unavailable (.noHostKey pattern))
  else
    return keys

/-! ## Requests -/

def codePoints (text : String) : CodePoints :=
  text.toList.map Char.toNat

/-- The value under a key. -/
def member (request : Members) (key : String) : Option Value :=
  request.lookup (codePoints key)

/-- `base64.b64decode` of a string, which must be ASCII. -/
def b64decodeCodes (codes : CodePoints) : Option Bytes :=
  if codes.all (· < 128) then b64decode (codes.map Char.ofNat) else none

/-- The nonce and whether GPU evidence is asked for. -/
def parseRequest (loads : Bytes → Option Value) (body : Bytes) :
    Except BadRequest (Bytes × Bool) :=
  match loads body with
  | some (.object request) => do
      let unknown :=
        (request.map (·.1)).filter fun key =>
          key ≠ codePoints "nonce" ∧ key ≠ codePoints "nvidia_gpu"
      match unknown.insertionSort (· ≤ ·) with
      | field :: _ => throw (.unknownField field)
      | [] => pure ()
      let nonce ←
        match member request "nonce" with
        | some (.string nonceB64) =>
            match b64decodeCodes nonceB64 with
            | some nonce => pure nonce
            | none => throw .nonceNotBase64
        | _ => throw .nonceNotString
      if nonce.length ≠ nonceBytes then
        throw (.nonceLength nonce.length)
      match member request "nvidia_gpu" with
      | none => return (nonce, false)
      | some (.boolean gpu) => return (nonce, gpu)
      | some _ => throw .gpuNotBoolean
  | _ => .error .notObject

def BadRequest.message : BadRequest → CodePoints
  | .notObject => codePoints "the body must be a JSON object"
  | .unknownField field =>
      codePoints "unknown field " ++ field ++
        codePoints
          (": this endpoint takes nonce and nvidia_gpu only; " ++
            "inside the guest, attestation-api is at 127.0.0.1:8401")
  | .nonceNotString => codePoints "nonce must be a base64 string"
  | .nonceNotBase64 => codePoints "nonce must be standard base64"
  | .nonceLength length =>
      codePoints s!"nonce must be {nonceBytes} bytes, got {length}"
  | .gpuNotBoolean => codePoints "nvidia_gpu must be true or false"

/-! ## The endpoint -/

/--
A POST as the handler sees it: `contentLength` is the number `int` reads in the
header, if it reads one, and `body` what the client sends.
-/
structure Request where
  path : String
  contentLength : Option Int
  body : Bytes

/--
The endpoint while a POST is answered: the files under the pattern, whether a
slot for a quote came free in time, and attestation-api.
-/
structure Endpoint where
  hostKeys : String
  files : List HostKeyFile
  acquired : Bool
  quote : Block 48 → Bool → Except Unavailable Value

structure Answer where
  version : String
  sshHostKeys : List (List Char)
  attestation : Value

inductive Reply
  | answer (answer : Answer)
  | error (status : Nat) (message : CodePoints)
      (headers : List (String × String))
  /-- An exception that `do_POST` does not handle ends the connection. -/
  | closed

def Reply.refuse (status : Nat) (message : String)
    (headers : List (String × String)) : Reply :=
  .error status (codePoints message) headers

section

variable (sha384 : Bytes → Block 48) (loads : Bytes → Option Value)

/-- The keys, the report data and the evidence of one answer. -/
def attest (endpoint : Endpoint) (nonce : Bytes) (gpu : Bool) :
    Except Raised (List HostKey × Block 48 × Value) := do
  let keys ← readHostKeys endpoint.hostKeys endpoint.files
  let digest ← reportData sha384 nonce (keys.map (·.blob))
  let attestation ← (endpoint.quote digest gpu).mapError .unavailable
  return (keys, digest, attestation)

/-- The reply to a POST, and the report data of its quote. -/
def doPost (endpoint : Endpoint) (request : Request) :
    Reply × Option (Block 48) :=
  if request.path ≠ "/attest" then
    (.refuse 404 "not found" [], none)
  else
    match request.contentLength with
    | none => (.refuse 411 "Content-Length is required" [], none)
    | some length =>
        if length < 0 ∨ (maxBodyBytes : Int) < length then
          (.refuse 413 s!"the body may be {maxBodyBytes} bytes at most" [],
            none)
        else
          match parseRequest loads (request.body.take length.toNat) with
          | .error err => (.error 400 err.message [], none)
          | .ok (nonce, gpu) =>
              if ¬ endpoint.acquired then
                (.refuse 503 "busy, try again" [("Retry-After", "1")], none)
              else
                match attest sha384 endpoint nonce gpu with
                | .error (.unavailable _) =>
                    (.refuse 502 "could not obtain attestation evidence" [],
                      none)
                | .error _ => (.closed, none)
                | .ok (keys, digest, attestation) =>
                    (.answer
                        { version := "confos/ssh-host-keys/v1"
                          sshHostKeys := keys.map (·.line)
                          attestation := attestation },
                      some digest)

end

end Confos.Guest.Attest
