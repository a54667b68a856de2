import Confos.Library.Fallible
import Confos.Library.Text
import Confos.Tdx.Rtmr

/-!
# RTMR[3] and the images of a pod

The hook in the guest measures each container image by its digest, and the
verifier recomputes the register from image references.  Each side reads
references with a function of its own.  The two accept the same references and
bring them to the same canonical text, so a reference counts for the same
event however it is spelled.
-/

namespace Confos.Tdx.Workloads

open Confos.Library.ByteStrings
open Confos.Library.Fallible
open Confos.Library.Text
open Confos.Tdx.Rtmr

/-! ## References -/

/-- What stands behind the first at sign of a reference, or all of it. -/
def contentId (reference : String) : List Char :=
  match splitOnce '@' reference.toList with
  | some (_, digest) => digest
  | none => reference.toList

def digestStart : String := "sha256:"

/-- `u8::is_ascii_hexdigit`. -/
def isAsciiHexdigit (byte : UInt8) : Bool :=
  (0x30 ≤ byte && byte ≤ 0x39) || (0x41 ≤ byte && byte ≤ 0x46) ||
    (0x61 ≤ byte && byte ≤ 0x66)

/-- Sixty-four bytes, each a hexadecimal digit. -/
def isSha256Hex (hex : List Char) : Bool :=
  let bytes := utf8Bytes (String.ofList hex)
  bytes.length = 64 && bytes.all isAsciiHexdigit

/-- `to_ascii_lowercase`. -/
def toAsciiLowercase (text : List Char) : List Char :=
  text.map Char.toLower

/-- The canonical text of a digest. -/
def canonicalText (hex : List Char) : String :=
  digestStart ++ String.ofList (toAsciiLowercase hex)

/-- The verifier's reading of a reference. -/
def canonicalImageDigest (reference : String) : Except String String :=
  match stripStart digestStart.toList (contentId reference) with
  | none =>
      .error "image must be pinned by digest (…@sha256:<hex>); a tag is not content-bound"
  | some hex =>
      if isSha256Hex hex then
        .ok (canonicalText hex)
      else
        .error s!"sha256 image digest must be 64 hex chars, got {(String.ofList hex).quote}"

section

variable (sha384 : Bytes → Block 48)

/-- The hook's reading of a reference, and the event it extends by. -/
def workloadEventDigest (image : String) : Except String (Block 48) :=
  match stripStart digestStart.toList (contentId image) with
  | none =>
      .error s!"image '{image}' is not digest-pinned (…@sha256:<hex>); refusing to measure a tag"
  | some hex =>
      if isSha256Hex hex then
        let canonical := canonicalText hex
        .ok (sha384 (utf8Bytes canonical))
      else
        .error s!"malformed sha256 digest in image '{image}'"

/-! ## The register -/

/-- One container: its event, unless the hook refuses the image. -/
def measureContainer (rtmr3 : Block 48) (image : String) : Block 48 :=
  match workloadEventDigest sha384 image with
  | .ok event => rtmrExtend sha384 rtmr3 event.bytes
  | .error _ => rtmr3

/-- RTMR[3] after containers with these images. -/
def measureContainers (images : List String) : Block 48 :=
  images.foldl (measureContainer sha384) (Block.zero 48)

/-- RTMR[3] as the verifier expects it. -/
def computeRtmr3Workloads (canonicalDigests : List String) : Block 48 :=
  measureLog sha384
    (canonicalDigests.map fun digest => (sha384 (utf8Bytes digest)).bytes)

end

/-! ## Hexadecimal text -/

/-- A character that is encoded as one hexadecimal digit. -/
def IsHexChar (char : Char) : Prop :=
  char.toNat < 128 ∧ isAsciiHexdigit (UInt8.ofNat char.toNat) = true

instance (char : Char) : Decidable (IsHexChar char) :=
  inferInstanceAs (Decidable (_ ∧ _))

theorem toNat_le_of_isAsciiHexdigit
    {byte : UInt8} (isDigit : isAsciiHexdigit byte = true) :
    byte.toNat ≤ 0x66 := by
  simp only [isAsciiHexdigit, Bool.or_eq_true, Bool.and_eq_true,
    decide_eq_true_eq, UInt8.le_iff_toNat_le] at isDigit
  rcases isDigit with (⟨-, small⟩ | ⟨-, small⟩) | ⟨-, small⟩
  · exact small.trans (by decide)
  · exact small.trans (by decide)
  · exact small

/-- The first byte of a longer encoding is no digit. -/
theorem not_isAsciiHexdigit_of_lead
    {low lead : Nat} (byte : low + lead < 256) (large : 0x66 < lead) :
    ¬ isAsciiHexdigit (UInt8.ofNat (low + lead)) = true := by
  intro isDigit
  have small := toNat_le_of_isAsciiHexdigit isDigit
  rw [UInt8.toNat_ofNat_of_lt' byte] at small
  omega

/-- The encoding of any other character has a byte that is no digit. -/
theorem forall_isAsciiHexdigit_utf8EncodeChar
    {char : Char} :
    (∀ byte ∈ String.utf8EncodeChar char, isAsciiHexdigit byte = true) ↔
      IsHexChar char := by
  constructor
  · rw [String.utf8EncodeChar]
    intro digits
    split_ifs at digits with one two three
    · exact ⟨Nat.lt_succ_of_le one, digits _ List.mem_cons_self⟩
    · exact
        (not_isAsciiHexdigit_of_lead (by omega) (by decide)
          (digits _ List.mem_cons_self)).elim
    · exact
        (not_isAsciiHexdigit_of_lead (by omega) (by decide)
          (digits _ List.mem_cons_self)).elim
    · exact
        (not_isAsciiHexdigit_of_lead (by omega) (by decide)
          (digits _ List.mem_cons_self)).elim
  · rintro ⟨small, isDigit⟩ byte member
    rw [utf8EncodeChar_of_lt small] at member
    cases List.mem_singleton.1 member
    exact isDigit

/-- The check of the bytes is one of the characters. -/
theorem isSha256Hex_eq_true_iff {hex : List Char} :
    isSha256Hex hex = true ↔
      hex.length = 64 ∧ ∀ char ∈ hex, IsHexChar char := by
  have length_of_digits :
      (∀ char ∈ hex, IsHexChar char) →
        (hex.flatMap String.utf8EncodeChar).length = hex.length := by
    intro digits
    rw [List.length_flatMap]
    have one :
        hex.map (fun char => (String.utf8EncodeChar char).length) =
          hex.map fun _ => 1 := by
      apply List.map_congr_left
      intro char member
      rw [utf8EncodeChar_of_lt (digits char member).1]
      rfl
    rw [one]
    simp
  rw [isSha256Hex, utf8Bytes_ofList]
  simp only [Bool.and_eq_true, decide_eq_true_eq, List.all_eq_true,
    List.mem_flatMap, forall_exists_index, and_imp]
  constructor
  · rintro ⟨length, digits⟩
    have hexChars : ∀ char ∈ hex, IsHexChar char := by
      intro char member
      apply forall_isAsciiHexdigit_utf8EncodeChar.1
      intro byte encoded
      exact digits byte char member encoded
    exact ⟨(length_of_digits hexChars).symm.trans length, hexChars⟩
  · rintro ⟨length, hexChars⟩
    refine ⟨(length_of_digits hexChars).trans length, ?_⟩
    intro byte char member encoded
    exact
      forall_isAsciiHexdigit_utf8EncodeChar.2 (hexChars char member) byte
        encoded

/-! ## The canonical text -/

theorem toLower_of_lt :
    ∀ code < 128,
      (IsHexChar (Char.ofNat code) →
          IsHexChar (Char.ofNat code).toLower) ∧
        (Char.ofNat code).toLower.toLower = (Char.ofNat code).toLower ∧
          (IsHexChar (Char.ofNat code) →
            (Char.ofNat code).toLower ≠ '@') := by
  decide +kernel

/-- A canonical digest is in lower case and has no at sign. -/
structure IsLowerHex (hex : List Char) : Prop where
  accepted : isSha256Hex hex = true
  lower : toAsciiLowercase hex = hex
  no_at : '@' ∉ hex

theorem isLowerHex_toAsciiLowercase
    {hex : List Char} (accepted : isSha256Hex hex = true) :
    IsLowerHex (toAsciiLowercase hex) := by
  rcases isSha256Hex_eq_true_iff.1 accepted with ⟨length, hexChars⟩
  have lowered :
      ∀ char ∈ hex,
        IsHexChar char.toLower ∧ char.toLower.toLower = char.toLower ∧
          char.toLower ≠ '@' := by
    intro char member
    have isHex := hexChars char member
    rcases toLower_of_lt char.toNat isHex.1 with ⟨keeps, twice, noAt⟩
    rw [Char.ofNat_toNat] at keeps twice noAt
    exact ⟨keeps isHex, twice, noAt isHex⟩
  constructor
  · apply isSha256Hex_eq_true_iff.2
    constructor
    · rw [toAsciiLowercase, List.length_map]
      exact length
    · intro char member
      rcases List.mem_map.1 member with ⟨other, otherMember, rfl⟩
      exact (lowered other otherMember).1
  · rw [toAsciiLowercase, toAsciiLowercase, List.map_map]
    apply List.map_congr_left
    intro char member
    exact (lowered char member).2.1
  · intro atSign
    rcases List.mem_map.1 atSign with ⟨char, member, same⟩
    exact (lowered char member).2.2 same

theorem splitOnce_eq_none_of_notMem
    {separator : Char} {text : List Char} (absent : separator ∉ text) :
    splitOnce separator text = none := by
  induction text with
  | nil => rfl
  | cons char text induction =>
      rw [List.mem_cons, not_or] at absent
      rw [splitOnce, if_neg (Ne.symm absent.1), induction absent.2]
      rfl

/-- Reading a canonical text gives its digest back. -/
theorem stripStart_canonicalText
    {hex : List Char} (noAt : '@' ∉ toAsciiLowercase hex) :
    stripStart digestStart.toList (contentId (canonicalText hex)) =
      some (toAsciiLowercase hex) := by
  have text :
      (canonicalText hex).toList =
        digestStart.toList ++ toAsciiLowercase hex := by
    rw [canonicalText, String.toList_append, String.toList_ofList]
  have absent : '@' ∉ (canonicalText hex).toList := by
    rw [text, List.mem_append, not_or]
    exact ⟨by decide, noAt⟩
  rw [contentId, splitOnce_eq_none_of_notMem absent, text, stripStart,
    if_pos (List.isPrefixOf_iff_prefix.2 (List.prefix_append ..)),
    List.drop_left]

/-- Both sides accept a reference by its digest. -/
theorem canonicalImageDigest_eq_ok_iff {reference canonical : String} :
    canonicalImageDigest reference = .ok canonical ↔
      ∃ hex,
        stripStart digestStart.toList (contentId reference) = some hex ∧
          isSha256Hex hex = true ∧ canonicalText hex = canonical := by
  rw [canonicalImageDigest]
  cases stripStart digestStart.toList (contentId reference) with
  | none =>
      constructor
      · intro impossible
        cases impossible
      · rintro ⟨hex, impossible, -⟩
        cases impossible
  | some hex =>
      dsimp only
      by_cases accepted : isSha256Hex hex = true
      · rw [if_pos accepted]
        constructor
        · intro equal
          cases equal
          exact ⟨hex, rfl, accepted, rfl⟩
        · rintro ⟨other, same, -, rfl⟩
          cases same
          rfl
      · rw [if_neg accepted]
        constructor
        · intro impossible
          cases impossible
        · rintro ⟨other, same, isHex, -⟩
          cases same
          exact (accepted isHex).elim

/-- Canonical texts are fixed. -/
theorem canonicalImageDigest_idempotent
    {reference canonical : String}
    (accepted : canonicalImageDigest reference = .ok canonical) :
    canonicalImageDigest canonical = .ok canonical := by
  rcases canonicalImageDigest_eq_ok_iff.1 accepted with
    ⟨hex, -, isHex, rfl⟩
  have lower := isLowerHex_toAsciiLowercase isHex
  apply canonicalImageDigest_eq_ok_iff.2
  refine
    ⟨toAsciiLowercase hex, stripStart_canonicalText lower.no_at,
      lower.accepted, ?_⟩
  rw [canonicalText, lower.lower, canonicalText]

section

variable (sha384 : Bytes → Block 48)

/-- The hook's event is the digest of the verifier's canonical text. -/
theorem workloadEventDigest_eq_ok_iff
    {image : String} {event : Block 48} :
    workloadEventDigest sha384 image = .ok event ↔
      ∃ canonical,
        canonicalImageDigest image = .ok canonical ∧
          sha384 (utf8Bytes canonical) = event := by
  rw [workloadEventDigest, canonicalImageDigest]
  cases stripStart digestStart.toList (contentId image) with
  | none =>
      constructor
      · intro impossible
        cases impossible
      · rintro ⟨canonical, impossible, -⟩
        cases impossible
  | some hex =>
      dsimp only
      by_cases accepted : isSha256Hex hex = true
      · rw [if_pos accepted, if_pos accepted]
        constructor
        · intro equal
          cases equal
          exact ⟨canonicalText hex, rfl, rfl⟩
        · rintro ⟨canonical, same, rfl⟩
          cases same
          rfl
      · rw [if_neg accepted, if_neg accepted]
        constructor
        · intro impossible
          cases impossible
        · rintro ⟨canonical, impossible, -⟩
          cases impossible

/-- An image the verifier refuses leaves the register alone. -/
theorem measureContainer_of_error
    {image problem : String}
    (refused : canonicalImageDigest image = .error problem)
    (rtmr3 : Block 48) :
    measureContainer sha384 rtmr3 image = rtmr3 := by
  rw [measureContainer]
  cases digest : workloadEventDigest sha384 image with
  | error refusal => rfl
  | ok event =>
      rcases (workloadEventDigest_eq_ok_iff sha384).1 digest with
        ⟨canonical, impossible, -⟩
      rw [refused] at impossible
      cases impossible

theorem measureContainer_of_ok
    {image canonical : String}
    (accepted : canonicalImageDigest image = .ok canonical)
    (rtmr3 : Block 48) :
    measureContainer sha384 rtmr3 image =
      rtmrExtend sha384 rtmr3 (sha384 (utf8Bytes canonical)).bytes := by
  rw [measureContainer,
    (workloadEventDigest_eq_ok_iff sha384).2 ⟨canonical, accepted, rfl⟩]

/-- The register after any containers is that of the accepted images. -/
theorem measureContainers_eq
    (images : List String) :
    measureContainers sha384 images =
      computeRtmr3Workloads sha384
        (images.filterMap fun image =>
          (canonicalImageDigest image).toOption) := by
  rw [measureContainers, computeRtmr3Workloads, measureLog]
  generalize Block.zero 48 = rtmr3
  induction images generalizing rtmr3 with
  | nil => rfl
  | cons image images induction =>
      rw [List.foldl_cons, List.filterMap_cons]
      cases canonical : canonicalImageDigest image with
      | error problem =>
          rw [measureContainer_of_error sha384 canonical]
          exact induction rtmr3
      | ok text =>
          rw [measureContainer_of_ok sha384 canonical]
          exact induction _

theorem filterMap_of_mapM_eq_ok
    {images canonicals : List String}
    (accepted : images.mapM canonicalImageDigest = .ok canonicals) :
    (images.filterMap fun image => (canonicalImageDigest image).toOption) =
      canonicals := by
  induction mapM_eq_ok.1 accepted with
  | nil => rfl
  | cons canonical later induction =>
      rw [List.filterMap_cons, canonical]
      exact congrArg _ (induction (mapM_eq_ok.2 later))

/--
Hook and verifier accept the same references, the hook extends by the digest
of the verifier's canonical text, which is canonical itself, and so the
register after any containers is the one computed from the canonical texts of
their images; refused references count on neither side.
-/
theorem measureContainers_agree :
    (∀ image,
        (∃ event, workloadEventDigest sha384 image = .ok event) ↔
          ∃ canonical, canonicalImageDigest image = .ok canonical) ∧
      (∀ image canonical,
        canonicalImageDigest image = .ok canonical →
          workloadEventDigest sha384 image =
              .ok (sha384 (utf8Bytes canonical)) ∧
            canonicalImageDigest canonical = .ok canonical) ∧
        (∀ images canonicals,
          images.mapM canonicalImageDigest = .ok canonicals →
            measureContainers sha384 images =
              computeRtmr3Workloads sha384 canonicals) ∧
          ∀ images,
            measureContainers sha384 images =
              computeRtmr3Workloads sha384
                (images.filterMap fun image =>
                  (canonicalImageDigest image).toOption) := by
  refine ⟨?_, ?_, ?_, measureContainers_eq sha384⟩
  · intro image
    constructor
    · rintro ⟨event, hooked⟩
      rcases (workloadEventDigest_eq_ok_iff sha384).1 hooked with
        ⟨canonical, accepted, -⟩
      exact ⟨canonical, accepted⟩
    · rintro ⟨canonical, accepted⟩
      exact
        ⟨_, (workloadEventDigest_eq_ok_iff sha384).2
          ⟨canonical, accepted, rfl⟩⟩
  · intro image canonical accepted
    constructor
    · exact
        (workloadEventDigest_eq_ok_iff sha384).2 ⟨canonical, accepted, rfl⟩
    · exact canonicalImageDigest_idempotent accepted
  · intro images canonicals accepted
    rw [measureContainers_eq, filterMap_of_mapM_eq_ok accepted]

end

end Confos.Tdx.Workloads
