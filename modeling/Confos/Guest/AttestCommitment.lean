import Confos.Guest.Attest

/-!
# What the report data commits to

The digested message is a sequence of self-delimiting fields, so it tells the
nonce and the keys; the lines of an answer decode to the keys of its message.
-/

namespace Confos.Guest.Attest

open Confos.Library.ByteStrings
open Confos.Library.Codes
open Confos.Library.Fallible
open Confos.Library.Json
open Confos.Library.PythonText
open Confos.Library.Text

/-! ## The message -/

/-- A length that fits the 32 bits in front of a field. -/
def Fits (field : Bytes) : Prop :=
  field.length < 2 ^ 32

/-- A field behind its length, whatever becomes of a length that is too big. -/
def framed (field : Bytes) : Bytes :=
  (leBytes 4 field.length).reverse ++ field

theorem lp_eq_ok_iff {field bytes : Bytes} :
    lp field = .ok bytes ↔ Fits field ∧ bytes = framed field := by
  rw [lp, packBigEndian32, Fits, framed]
  by_cases fits : field.length < 2 ^ 32
  · rw [if_pos fits]
    constructor
    · intro packed
      cases packed
      exact ⟨fits, rfl⟩
    · rintro ⟨-, rfl⟩
      rfl
  · rw [if_neg fits]
    constructor
    · intro impossible
      cases impossible
    · rintro ⟨impossible, -⟩
      exact absurd impossible fits

theorem framed_ne_nil (field : Bytes) : framed field ≠ [] := by
  intro empty
  have short := congrArg List.length empty
  rw [framed, List.length_append, List.length_reverse, length_leBytes] at short
  exact absurd short (by simp)

/-- A field behind its length tells where it ends. -/
theorem framed_selfDelimiting : SelfDelimitingOn Fits framed := by
  intro left right leftRest rightRest leftFits rightFits equal
  rw [framed, framed, List.append_assoc, List.append_assoc] at equal
  have headers := List.append_inj equal (by simp)
  have sameLength : left.length = right.length :=
    leBytes_injOn leftFits rightFits (List.reverse_injective headers.1)
  exact List.append_inj headers.2 sameLength

theorem mapM_lp_eq_ok_iff {fields : List Bytes} {words : List Bytes} :
    fields.mapM lp = .ok words ↔
      (∀ field ∈ fields, Fits field) ∧ words = fields.map framed := by
  rw [mapM_eq_ok]
  induction fields generalizing words with
  | nil => simp
  | cons field fields induction =>
      rw [List.forall₂_cons_left_iff, List.forall_mem_cons, List.map_cons]
      constructor
      · rintro ⟨word, rest, first, others, rfl⟩
        rcases lp_eq_ok_iff.1 first with ⟨fits, rfl⟩
        rcases induction.1 others with ⟨othersFit, rfl⟩
        exact ⟨⟨fits, othersFit⟩, rfl⟩
      · rintro ⟨⟨fits, othersFit⟩, rfl⟩
        exact
          ⟨framed field, fields.map framed, lp_eq_ok_iff.2 ⟨fits, rfl⟩,
            induction.2 ⟨othersFit, rfl⟩, rfl⟩

theorem fits_label : Fits label :=
  show label.length < 2 ^ 32 by decide

/-- The message is the sequence of its framed fields. -/
theorem encoded_eq_ok_iff {nonce message : Bytes} {keyBlobs : List Bytes} :
    encoded nonce keyBlobs = .ok message ↔
      (∀ field ∈ nonce :: keyBlobs, Fits field) ∧
        message = (label :: nonce :: keyBlobs).flatMap framed := by
  have layout :
      (label :: nonce :: keyBlobs).flatMap framed =
        framed label ++ framed nonce ++ (keyBlobs.map framed).flatten := by
    rw [List.flatMap_cons, List.flatMap_cons, List.flatMap_def,
      List.append_assoc]
  rw [encoded, bind_eq_ok, layout, List.forall_mem_cons]
  constructor
  · rintro ⟨labelField, labelFramed, rest⟩
    rcases bind_eq_ok.1 rest with ⟨nonceField, nonceFramed, rest⟩
    rcases bind_eq_ok.1 rest with ⟨keyFields, keysFramed, returned⟩
    rcases lp_eq_ok_iff.1 labelFramed with ⟨-, rfl⟩
    rcases lp_eq_ok_iff.1 nonceFramed with ⟨nonceFits, rfl⟩
    rcases mapM_lp_eq_ok_iff.1 keysFramed with ⟨keysFit, rfl⟩
    cases returned
    exact ⟨⟨nonceFits, keysFit⟩, rfl⟩
  · rintro ⟨⟨nonceFits, keysFit⟩, rfl⟩
    refine ⟨framed label, lp_eq_ok_iff.2 ⟨fits_label, rfl⟩, ?_⟩
    apply bind_eq_ok.2
    refine ⟨framed nonce, lp_eq_ok_iff.2 ⟨nonceFits, rfl⟩, ?_⟩
    apply bind_eq_ok.2
    exact
      ⟨keyBlobs.map framed, mapM_lp_eq_ok_iff.2 ⟨keysFit, rfl⟩, rfl⟩

/-- A message tells its nonce and its keys. -/
theorem eq_of_encoded_eq
    {message nonce nonce' : Bytes} {keyBlobs keyBlobs' : List Bytes}
    (left : encoded nonce keyBlobs = .ok message)
    (right : encoded nonce' keyBlobs' = .ok message) :
    nonce = nonce' ∧ keyBlobs = keyBlobs' := by
  rcases encoded_eq_ok_iff.1 left with ⟨leftFit, rfl⟩
  rcases encoded_eq_ok_iff.1 right with ⟨rightFit, equal⟩
  have same :=
    framed_selfDelimiting.flatMap_injOn framed_ne_nil
      (List.forall_mem_cons.2 ⟨fits_label, leftFit⟩)
      (List.forall_mem_cons.2 ⟨fits_label, rightFit⟩) equal
  rw [List.cons.injEq, List.cons.injEq] at same
  exact same.2

/-! ## The listed keys -/

/-- The wire encoding that a listed line names: its base64 field, decoded. -/
def decodeLine (line : List Char) : Option Bytes :=
  (splitOnce ' ' line).bind fun fields => b64decode fields.2

theorem decodeLine_of_readHostKey
    {file : HostKeyFile} {key : HostKey}
    (read : readHostKey file = .ok key) :
    decodeLine key.line = some key.blob := by
  rw [readHostKey] at read
  split at read
  · cases read
  · rename_i line _
    split at read
    · rename_i keyType encoded rest words
      split at read
      · cases read
      · rename_i blob decoded
        rcases bind_eq_ok.1 read with ⟨named, -, checked⟩
        split at checked
        · cases checked
        cases checked
        have isWord : keyType ∈ split line := by
          rw [words]
          exact List.mem_cons_self
        have absent : ' ' ∉ keyType := by
          intro inside
          cases isSpace_eq_false_of_mem_split isWord inside
        rw [decodeLine, splitOnce_append_cons absent]
        exact decoded
    · cases read

/-- The listed lines decode to the keys of the commitment, in order. -/
theorem mapM_decodeLine
    {files : List HostKeyFile} {keys : List HostKey}
    (read : files.mapM readHostKey = .ok keys) :
    (keys.map (·.line)).mapM decodeLine = some (keys.map (·.blob)) := by
  have related := mapM_eq_ok.1 read
  clear read
  induction related with
  | nil => rfl
  | cons first _ induction =>
      rw [List.map_cons, List.mapM_cons, decodeLine_of_readHostKey first,
        induction]
      rfl

theorem mapM_decodeLine_of_readHostKeys
    {pattern : String} {files : List HostKeyFile} {keys : List HostKey}
    (read : readHostKeys pattern files = .ok keys) :
    (keys.map (·.line)).mapM decodeLine = some (keys.map (·.blob)) := by
  rw [readHostKeys] at read
  rcases bind_eq_ok.1 read with ⟨found, each, checked⟩
  split at checked
  · cases checked
  cases checked
  exact mapM_decodeLine each

/-! ## The answers -/

section

variable {sha384 : Bytes → Block 48} {loads : Bytes → Option Value}

/-- The message whose digest a request makes the endpoint ask a quote for. -/
def Commits (loads : Bytes → Option Value) (endpoint : Endpoint)
    (request : Request) (keys : List HostKey) (message : Bytes) : Prop :=
  ∃ length nonce gpu,
    request.contentLength = some length ∧
      parseRequest loads (request.body.take length.toNat) =
          .ok (nonce, gpu) ∧
        readHostKeys endpoint.hostKeys endpoint.files = .ok keys ∧
          encoded nonce (keys.map (·.blob)) = .ok message

theorem reportData_eq_ok
    {nonce : Bytes} {keyBlobs : List Bytes} {digest : Block 48}
    (built : reportData sha384 nonce keyBlobs = .ok digest) :
    ∃ message,
      encoded nonce keyBlobs = .ok message ∧ sha384 message = digest := by
  rw [reportData] at built
  split at built
  · cases built
  split at built
  · cases built
  cases joined : encoded nonce keyBlobs with
  | error problem =>
      rw [joined] at built
      cases built
  | ok message =>
      rw [joined] at built
      cases built
      exact ⟨message, rfl, rfl⟩

theorem attest_eq_ok
    {endpoint : Endpoint} {nonce : Bytes} {gpu : Bool}
    {keys : List HostKey} {digest : Block 48} {attestation : Value}
    (attested :
      attest sha384 endpoint nonce gpu = .ok (keys, digest, attestation)) :
    readHostKeys endpoint.hostKeys endpoint.files = .ok keys ∧
      reportData sha384 nonce (keys.map (·.blob)) = .ok digest := by
  rw [attest] at attested
  rcases bind_eq_ok.1 attested with ⟨found, read, rest⟩
  rcases bind_eq_ok.1 rest with ⟨data, built, rest⟩
  rcases bind_eq_ok.1 rest with ⟨evidence, -, returned⟩
  cases returned
  exact ⟨read, built⟩

/-- An answer lists the keys of the message its quote covers. -/
theorem commits_of_doPost
    {endpoint : Endpoint} {request : Request} {answer : Answer}
    {digest : Block 48}
    (answered :
      doPost sha384 loads endpoint request = (.answer answer, some digest)) :
    ∃ keys message,
      Commits loads endpoint request keys message ∧
        sha384 message = digest ∧
          answer.sshHostKeys.mapM decodeLine = some (keys.map (·.blob)) := by
  rw [doPost] at answered
  split at answered
  · cases answered
  split at answered
  · cases answered
  rename_i length hasLength
  split at answered
  · cases answered
  split at answered
  · cases answered
  rename_i nonce gpu parsed
  split at answered
  · cases answered
  split at answered
  · cases answered
  · cases answered
  rename_i keys data attestation attested
  cases answered
  rcases attest_eq_ok attested with ⟨read, built⟩
  rcases reportData_eq_ok built with ⟨message, joined, digested⟩
  exact
    ⟨keys, message, ⟨length, nonce, gpu, hasLength, parsed, read, joined⟩,
      digested, mapM_decodeLine_of_readHostKeys read⟩

/--
Equal messages have the same nonce and the same keys.  Answers of equal report
data list keys that decode to the same encodings in the same order, unless the
digest collides on the messages of the two.
-/
theorem commitment_injective :
    (∀ nonce nonce' keyBlobs keyBlobs',
      nonce.length = nonceBytes → nonce'.length = nonceBytes →
        keyBlobs ≠ [] → keyBlobs' ≠ [] →
          (∀ blob ∈ keyBlobs, blob.length < 2 ^ 32) →
            (∀ blob ∈ keyBlobs', blob.length < 2 ^ 32) →
              encoded nonce keyBlobs = encoded nonce' keyBlobs' →
                nonce = nonce' ∧ keyBlobs = keyBlobs') ∧
      ∀ (sha384 : Bytes → Block 48) (loads : Bytes → Option Value)
        (endpoint endpoint' : Endpoint) (request request' : Request)
        (answer answer' : Answer) (digest : Block 48),
        Set.InjOn sha384
            {message | ∃ keys,
              Commits loads endpoint request keys message ∨
                Commits loads endpoint' request' keys message} →
          doPost sha384 loads endpoint request =
              (.answer answer, some digest) →
            doPost sha384 loads endpoint' request' =
                (.answer answer', some digest) →
              ∃ blobs,
                answer.sshHostKeys.mapM decodeLine = some blobs ∧
                  answer'.sshHostKeys.mapM decodeLine = some blobs := by
  constructor
  · intro nonce nonce' keyBlobs keyBlobs' nonceLength _ _ _ fit _ equal
    have nonceFits : Fits nonce := by
      rw [Fits, nonceLength]
      decide
    have joined :=
      encoded_eq_ok_iff.2 ⟨List.forall_mem_cons.2 ⟨nonceFits, fit⟩, rfl⟩
    exact eq_of_encoded_eq joined (equal ▸ joined)
  · intro sha384 loads endpoint endpoint' request request' answer answer'
      digest noCollision answered answered'
    rcases commits_of_doPost answered with
      ⟨keys, message, commits, digested, decoded⟩
    rcases commits_of_doPost answered' with
      ⟨keys', message', commits', digested', decoded'⟩
    have sameMessage : message = message' :=
      noCollision ⟨keys, Or.inl commits⟩ ⟨keys', Or.inr commits'⟩
        (digested.trans digested'.symm)
    rcases commits with ⟨-, nonce, -, -, -, -, joined⟩
    rcases commits' with ⟨-, nonce', -, -, -, -, joined'⟩
    have sameKeys := (eq_of_encoded_eq joined (sameMessage ▸ joined')).2
    exact ⟨_, decoded, sameKeys ▸ decoded'⟩

/-- A request commits to one message. -/
theorem Commits.unique
    {endpoint : Endpoint} {request : Request} {keys keys' : List HostKey}
    {message message' : Bytes}
    (left : Commits loads endpoint request keys message)
    (right : Commits loads endpoint request keys' message') :
    message = message' := by
  rcases left with ⟨length, nonce, gpu, hasLength, parsed, read, joined⟩
  rcases right with ⟨length', nonce', gpu', hasLength', parsed', read', joined'⟩
  cases hasLength.symm.trans hasLength'
  cases parsed.symm.trans parsed'
  cases read.symm.trans read'
  cases joined.symm.trans joined'
  rfl

end

/-! ## A guest with one key -/

def oneKeyEndpoint : Endpoint where
  hostKeys := "/etc/ssh/ssh_host_*_key.pub"
  files :=
    [{ path := "/etc/ssh/ssh_host_a_key.pub"
       content := some (utf8Bytes "a AAAAAWE= root@guest\n") }]
  acquired := true
  quote := fun _ _ => .ok .null

def zeroNonceRequest : Request where
  path := "/attest"
  contentLength := some 56
  body :=
    utf8Bytes
      ("\x7b\"nonce\":\"" ++ String.ofList (List.replicate 43 'A') ++ "=\"\x7d")

def loadsAscii (body : Bytes) : Option Value :=
  (decodeAscii body).bind fun text => (loads ⟨4300, 1000⟩ text).toOption

def firstBytes48 (bytes : Bytes) : Block 48 :=
  ⟨padTo 48 bytes, length_padTo 48 bytes⟩

def oneKeyAnswer : Answer where
  version := "confos/ssh-host-keys/v1"
  sshHostKeys := ["a AAAAAWE=".toList]
  attestation := .null

theorem doPost_oneKey :
    doPost firstBytes48 loadsAscii oneKeyEndpoint zeroNonceRequest =
      (.answer oneKeyAnswer,
        some
          (firstBytes48
            (framed label ++ framed (List.replicate 32 0) ++
              framed [0, 0, 0, 1, 97]))) :=
  rfl

theorem commitment_injective_oneKey :
    (List.replicate 32 0 = List.replicate 32 (0 : UInt8) ∧
        [[0, 0, 0, 1, 97]] = [[0, 0, 0, 1, (97 : UInt8)]]) ∧
      ∃ blobs, oneKeyAnswer.sshHostKeys.mapM decodeLine = some blobs := by
  constructor
  · exact
      commitment_injective.1 (List.replicate 32 0) (List.replicate 32 0)
        [[0, 0, 0, 1, 97]] [[0, 0, 0, 1, 97]] (by decide) (by decide)
        (by decide) (by decide) (by decide) (by decide) rfl
  · have noCollision :
        Set.InjOn firstBytes48
          {message | ∃ keys,
            Commits loadsAscii oneKeyEndpoint zeroNonceRequest keys message ∨
              Commits loadsAscii oneKeyEndpoint zeroNonceRequest keys
                message} := by
      rintro left ⟨_, leftCommits⟩ right ⟨_, rightCommits⟩ -
      rw [or_self] at leftCommits rightCommits
      exact leftCommits.unique rightCommits
    rcases
      commitment_injective.2 firstBytes48 loadsAscii oneKeyEndpoint
        oneKeyEndpoint zeroNonceRequest zeroNonceRequest oneKeyAnswer
        oneKeyAnswer _ noCollision doPost_oneKey doPost_oneKey with
      ⟨blobs, decoded, -⟩
    exact ⟨blobs, decoded⟩

end Confos.Guest.Attest
