import Confos.Library.ByteStrings

/-!
# Staged files

`mirror-apt-snapshot` keeps its downloads in files named by their digests.  A
worker that wants one tests whether it is there, downloads it if it is not,
and verifies it.  One step of a worker is one operation on the file.
-/

namespace Confos.Apt.Staging

open Confos.Library.ByteStrings

/-! ## Writing at a position -/

/-- A block written at a position; a gap in front of it is filled with zeros. -/
def writeAt (content : Bytes) (position : Nat) (block : Bytes) : Bytes :=
  content.take position ++
    (List.replicate (position - content.length) 0 ++
      (block ++ content.drop (position + block.length)))

/-- Blocks one behind the other make up what they are blocks of. -/
theorem writeAt_take
    (response : Bytes) (position length : Nat)
    (inside : position ≤ response.length) :
    writeAt (response.take position) position
        ((response.drop position).take length) =
      response.take
        (position + ((response.drop position).take length).length) := by
  have whole : (response.take position).length = position := by
    rw [List.length_take, Nat.min_eq_left inside]
  have behind :
      (response.take position).drop
          (position + ((response.drop position).take length).length) =
        [] := by
    rw [List.drop_eq_nil_iff, whole]
    exact Nat.le_add_right _ _
  have block :
      (response.drop position).take
          ((response.drop position).take length).length =
        (response.drop position).take length := by
    rw [List.length_take, ← List.take_eq_take_min]
  rw [writeAt, behind, whole, Nat.sub_self, List.replicate_zero,
    List.nil_append, List.append_nil, List.take_take, Nat.min_self,
    List.take_add, block]

/-! ## One file -/

/-- A file by the digest and the size that an index gives for it. -/
structure Item (Digest : Type) where
  digest : Digest
  size : Nat
deriving DecidableEq

/-- Where a worker is with a file. -/
inductive Phase where
  /-- `is_file()` is to come. -/
  | test
  /-- The file is there and is to be hashed. -/
  | found
  /-- The file is to be requested, and opened when the answer is there. -/
  | request
  /-- The answer is being written. -/
  | writing (response : Bytes) (position : Nat)
  /-- The size of the file is to be tested. -/
  | size
  /-- The file is to be hashed for the last time. -/
  | hash
deriving DecidableEq

/-- What else decides a step. -/
inductive Choice where
  | go
  /-- A server answers a request. -/
  | answer (response : Bytes)
  /-- Of the answer a block is written. -/
  | block (length : Nat)
  /-- The connection fails, and the file is requested again. -/
  | retry
  /-- The connection fails for good. -/
  | giveUp
  /-- The file is found at its destination. -/
  | present

/-- How far a step takes a worker. -/
inductive Outcome where
  | on (phase : Phase)
  | done
  /-- The exception `Untrusted`. -/
  | untrusted
  /-- Another exception. -/
  | failed
deriving DecidableEq

section

variable {Digest : Type} [DecidableEq Digest] (sha256 : Bytes → Digest)

/-- One step towards a staged file: what follows, and the file then. -/
def Item.act (item : Item Digest) (phase : Phase) (file : Option Bytes)
    (choice : Choice) : Option (Outcome × Option Bytes) :=
  match phase, choice with
  | .test, .go =>
      match file with
      | none => some (.on .request, file)
      | some _ => some (.on .found, file)
  | .found, .go =>
      match file with
      | none => some (.failed, file)
      | some content =>
          if sha256 content = item.digest then
            some (.done, file)
          else
            some (.on .request, file)
  | .request, .answer response => some (.on (.writing response 0), some [])
  | .request, .retry => some (.on .request, file)
  | .request, .giveUp => some (.failed, file)
  | .writing response position, .block length =>
      if position < response.length then
        let block := (response.drop position).take (length + 1)
        some
          (.on (.writing response (position + block.length)),
            file.map fun content => writeAt content position block)
      else
        none
  | .writing response position, .go =>
      if position < response.length then
        none
      else
        some (.on .size, file)
  | .writing _ _, .retry => some (.on .request, file)
  | .writing _ _, .giveUp => some (.failed, file)
  | .size, .go =>
      match file with
      | none => some (.failed, file)
      | some content =>
          if content.length = item.size then
            some (.on .hash, file)
          else
            some (.untrusted, file)
  | .hash, .go =>
      match file with
      | none => some (.failed, file)
      | some content =>
          if sha256 content = item.digest then
            some (.done, file)
          else
            some (.untrusted, file)
  | _, _ => none

/-- What a step can do to the phase and the file. -/
inductive Item.Acts (item : Item Digest) :
    Phase → Option Bytes → Choice → Outcome → Option Bytes → Prop where
  | absent : item.Acts .test none .go (.on .request) none
  | there (content : Bytes) :
      item.Acts .test (some content) .go (.on .found) (some content)
  | reuse (content : Bytes) (right : sha256 content = item.digest) :
      item.Acts .found (some content) .go .done (some content)
  | replace (content : Bytes) (wrong : sha256 content ≠ item.digest) :
      item.Acts .found (some content) .go (.on .request) (some content)
  | opened (file : Option Bytes) (response : Bytes) :
      item.Acts .request file (.answer response) (.on (.writing response 0))
        (some [])
  | write (file : Option Bytes) (response : Bytes) (position length : Nat)
      (before : position < response.length) :
      item.Acts (.writing response position) file (.block length)
        (.on
          (.writing response
            (position +
              ((response.drop position).take (length + 1)).length)))
        (file.map fun content =>
          writeAt content position
            ((response.drop position).take (length + 1)))
  | written (file : Option Bytes) (response : Bytes) (position : Nat)
      (all : response.length ≤ position) :
      item.Acts (.writing response position) file .go (.on .size) file
  | again (phase : Phase) (file : Option Bytes) :
      item.Acts phase file .retry (.on .request) file
  | fitting (content : Bytes) (fits : content.length = item.size) :
      item.Acts .size (some content) .go (.on .hash) (some content)
  | misfit (content : Bytes) (misfits : content.length ≠ item.size) :
      item.Acts .size (some content) .go .untrusted (some content)
  | verified (content : Bytes) (right : sha256 content = item.digest) :
      item.Acts .hash (some content) .go .done (some content)
  | tampered (content : Bytes) (wrong : sha256 content ≠ item.digest) :
      item.Acts .hash (some content) .go .untrusted (some content)
  | failed (phase : Phase) (file : Option Bytes) (choice : Choice) :
      item.Acts phase file choice .failed file

theorem Item.acts_of_act
    {item : Item Digest} {phase : Phase} {file after : Option Bytes}
    {choice : Choice} {outcome : Outcome}
    (acted : item.act sha256 phase file choice = some (outcome, after)) :
    item.Acts sha256 phase file choice outcome after := by
  cases phase with
  | test =>
      cases choice with
      | go =>
          cases file with
          | none =>
              cases acted
              exact .absent
          | some content =>
              cases acted
              exact .there content
      | _ => cases acted
  | found =>
      cases choice with
      | go =>
          cases file with
          | none =>
              cases acted
              exact .failed ..
          | some content =>
              simp only [act] at acted
              split at acted
              · next right =>
                  cases acted
                  exact .reuse content right
              · next wrong =>
                  cases acted
                  exact .replace content wrong
      | _ => cases acted
  | request =>
      cases choice with
      | answer response =>
          cases acted
          exact .opened file response
      | retry =>
          cases acted
          exact .again ..
      | giveUp =>
          cases acted
          exact .failed ..
      | _ => cases acted
  | writing response position =>
      cases choice with
      | block length =>
          simp only [act] at acted
          split at acted
          · next before =>
              cases acted
              exact .write file response position length before
          · cases acted
      | go =>
          simp only [act] at acted
          split at acted
          · cases acted
          · next all =>
              cases acted
              exact .written file response position (Nat.le_of_not_lt all)
      | retry =>
          cases acted
          exact .again ..
      | giveUp =>
          cases acted
          exact .failed ..
      | _ => cases acted
  | size =>
      cases choice with
      | go =>
          cases file with
          | none =>
              cases acted
              exact .failed ..
          | some content =>
              simp only [act] at acted
              split at acted
              · next fits =>
                  cases acted
                  exact .fitting content fits
              · next misfits =>
                  cases acted
                  exact .misfit content misfits
      | _ => cases acted
  | hash =>
      cases choice with
      | go =>
          cases file with
          | none =>
              cases acted
              exact .failed ..
          | some content =>
              simp only [act] at acted
              split at acted
              · next right =>
                  cases acted
                  exact .verified content right
              · next wrong =>
                  cases acted
                  exact .tampered content wrong
      | _ => cases acted

end

end Confos.Apt.Staging
