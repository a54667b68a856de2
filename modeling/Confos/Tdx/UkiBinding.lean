import Confos.Library.Fallible
import Confos.Library.HashChains
import Confos.Tdx.Rtmr

/-!
# What RTMR[2] says about a UKI

The events behind RTMR[2] carry no tags: names, section data, the load options
and the assembled initrd are told apart by their place and contents alone.  No
measured section can pass for the events that come after all sections, so the
sequence of hashed messages still tells which sections there are and what they
hold.
-/

namespace Confos.Tdx.UkiBinding

open Confos.Library.ByteStrings
open Confos.Library.Fallible
open Confos.Library.HashChains
open Confos.Tdx.Rtmr

/-! ## The hashed messages -/

/-- The message that announces a section. -/
def nameMessage (name : String) : Bytes :=
  utf8Bytes name ++ [0]

/-- The messages of the sections in a given order. -/
def sectionMessages
    (sections : List (String × Bytes)) (order : List String) : List Bytes :=
  order.flatMap fun name =>
    match sectionMap sections name with
    | some data => [nameMessage name, data]
    | none => []

/-- The message of the load options event. -/
def loadOptionsMessage (cmdlineData : Bytes) : Option Bytes :=
  (utf8Text? cmdlineData).map fun text =>
    ((text.toList.reverse.dropWhile trimmedAtEnd).reverse.flatMap
      encodeUtf16).flatMap (fun unit => leBytes 2 unit.toNat) ++ [0, 0]

/-- The message of the assembled initrd, if there is one. -/
def initrdMessages (sections : List (String × Bytes)) : List Bytes :=
  match sectionMap sections ".initrd", sectionMap sections ".osrel" with
  | some initrdData, some osrelData =>
      [buildAssembledInitrd initrdData osrelData]
  | _, _ => []

/-- The messages behind those of the sections. -/
def finalMessages (sections : List (String × Bytes)) : List Bytes :=
  ((sectionMap sections ".cmdline").bind loadOptionsMessage).toList ++
    initrdMessages sections

/-- The messages whose digests extend RTMR[2], in order. -/
def eventMessages (sections : List (String × Bytes)) : List Bytes :=
  sectionMessages sections ukiMeasurementOrder ++ finalMessages sections

section

variable (sha384 : Bytes → Block 48)

/-- The message one digest adds to a register. -/
def extendMessage (current digest : Block 48) : Bytes :=
  current.bytes ++ digest.bytes

/-- The messages of the extends themselves. -/
def extendMessages (sections : List (String × Bytes)) : List Bytes :=
  chainMessages sha384 extendMessage (Block.zero 48)
    ((eventMessages sections).map sha384)

/-- Everything that is hashed on the way to RTMR[2]. -/
def hashedMessages (sections : List (String × Bytes)) : List Bytes :=
  eventMessages sections ++ extendMessages sha384 sections

variable {sha384}

theorem extendMessage_injective : Function.Injective2 extendMessage := by
  intro left right leftDigest rightDigest equal
  rcases Block.append_inj equal with ⟨same, rest⟩
  exact ⟨same, Block.ext rest⟩

theorem measureLog_eq_chain (digests : List (Block 48)) :
    measureLog sha384 (digests.map (·.bytes)) =
      chain sha384 extendMessage (Block.zero 48) digests := by
  rw [measureLog, List.foldl_map]
  rfl

theorem measureLog_map (messages : List Bytes) :
    measureLog sha384 (messages.map fun message => (sha384 message).bytes) =
      register sha384 extendMessage (Block.zero 48) messages := by
  rw [register, ← measureLog_eq_chain, List.map_map]
  rfl

/-- The digests of the sections are those of their messages. -/
theorem map_sectionDigests
    (sections : List (String × Bytes)) (order : List String) :
    (order.flatMap fun name =>
          match sectionMap sections name with
          | some data => sectionDigests sha384 name data
          | none => []).map (·.digest) =
      (sectionMessages sections order).map sha384 := by
  rw [sectionMessages, List.map_flatMap, List.map_flatMap]
  apply congrArg (List.flatMap · order)
  funext name
  cases sectionMap sections name <;> rfl

theorem loadOptionsDigest_eq_ok
    {cmdlineData : Bytes} {digests : List Rtmr2Digest}
    (computed : loadOptionsDigest sha384 cmdlineData = .ok digests) :
    digests.map (·.digest) =
      (loadOptionsMessage cmdlineData).toList.map sha384 := by
  rw [loadOptionsDigest] at computed
  rw [loadOptionsMessage]
  cases decoded : utf8Text? cmdlineData with
  | none =>
      rw [decoded] at computed
      cases computed
  | some text =>
      rw [decoded] at computed
      cases computed
      rfl

/-- Every event is the digest of its message. -/
theorem precomputeRtmr2Digests_eq_ok
    {sections : List (String × Bytes)} {digests : List Rtmr2Digest}
    (computed : precomputeRtmr2Digests sha384 sections = .ok digests) :
    digests.map (·.digest) = (eventMessages sections).map sha384 := by
  have initrd :
      List.map Rtmr2Digest.digest
          (match sectionMap sections ".initrd",
              sectionMap sections ".osrel" with
            | some initrdData, some osrelData =>
                [{ kind := "initrd", sectionName := "assembled",
                   digest :=
                     sha384 (buildAssembledInitrd initrdData osrelData) }]
            | _, _ => []) =
        (initrdMessages sections).map sha384 := by
    rw [initrdMessages]
    cases sectionMap sections ".initrd" with
    | none => rfl
    | some initrdData => cases sectionMap sections ".osrel" <;> rfl
  rw [eventMessages, finalMessages, List.map_append, List.map_append,
    ← map_sectionDigests, ← initrd]
  rw [precomputeRtmr2Digests] at computed
  cases cmdline : sectionMap sections ".cmdline" with
  | none =>
      simp only [cmdline] at computed
      cases computed
      rw [List.map_append, List.map_append, List.append_assoc]
      rfl
  | some cmdlineData =>
      simp only [cmdline] at computed
      rcases bind_eq_ok.1 computed with ⟨loadOptions, loaded, returned⟩
      cases returned
      rw [List.map_append, List.map_append, loadOptionsDigest_eq_ok loaded,
        List.append_assoc]
      rfl

/-- The register is the chain over the digests of all messages. -/
theorem computeRtmr2Uki_eq_ok
    {sections : List (String × Bytes)} {rtmr2 : Block 48} {count : Nat}
    (computed : computeRtmr2Uki sha384 sections = .ok (rtmr2, count)) :
    rtmr2 =
      chain sha384 extendMessage (Block.zero 48)
        ((eventMessages sections).map sha384) := by
  rcases bind_eq_ok.1 computed with ⟨digests, precomputed, returned⟩
  cases returned
  rw [← precomputeRtmr2Digests_eq_ok precomputed, ← measureLog_eq_chain,
    List.map_map]
  rfl

/-! ## Telling the messages apart -/

theorem utf8Bytes_injective : Function.Injective utf8Bytes := by
  intro left right equal
  apply String.toByteArray_inj.1
  apply ByteArray.ext
  exact Array.toList_inj.1 equal

theorem nameMessage_injective : Function.Injective nameMessage := by
  intro left right equal
  exact utf8Bytes_injective (List.append_cancel_right equal)

theorem nodup_ukiMeasurementOrder : ukiMeasurementOrder.Nodup := by
  decide

/-- No name ends in a zero byte, and none is as long as an archive. -/
theorem name_bytes :
    ∀ name ∈ ukiMeasurementOrder,
      (utf8Bytes name).getLast? ≠ some 0 ∧
        (nameMessage name).length < cpioTrailer.length := by
  decide +kernel

theorem length_cpioTrailer_le (initrd osrel : Bytes) :
    cpioTrailer.length ≤ (buildAssembledInitrd initrd osrel).length := by
  rw [buildAssembledInitrd, buildOsrelCpio]
  simp only [List.length_append]
  omega

/-- No event behind the sections looks like the name of a section. -/
theorem ne_nameMessage_of_mem_finalMessages
    {sections : List (String × Bytes)} {message : Bytes}
    (member : message ∈ finalMessages sections) {name : String}
    (ordered : name ∈ ukiMeasurementOrder) :
    message ≠ nameMessage name := by
  rcases name_bytes name ordered with ⟨lastByte, short⟩
  rcases List.mem_append.1 member with loadOptions | initrd
  · intro equal
    rcases Option.bind_eq_some_iff.1 (Option.mem_toList.1 loadOptions) with
      ⟨cmdlineData, -, described⟩
    rcases Option.map_eq_some_iff.1 described with ⟨text, -, rfl⟩
    apply lastByte
    have named := congrArg List.dropLast equal
    rw [nameMessage, List.dropLast_concat, ← List.singleton_append,
      ← List.append_assoc, List.dropLast_concat] at named
    rw [← named, List.getLast?_concat]
  · intro equal
    rw [initrdMessages] at initrd
    split at initrd
    · cases List.mem_singleton.1 initrd
      rw [← equal] at short
      exact absurd (length_cpioTrailer_le _ _) (not_le.2 short)
    · cases initrd

/-- What comes first among the messages from some section on. -/
theorem eq_nameMessage_of_head
    {sections : List (String × Bytes)} {order : List String}
    {final rest : List Bytes} {message : Bytes}
    (begins : sectionMessages sections order ++ final = message :: rest) :
    (∃ name ∈ order, message = nameMessage name) ∨ message ∈ final := by
  induction order with
  | nil =>
      right
      rw [sectionMessages, List.flatMap_nil, List.nil_append] at begins
      rw [begins]
      exact List.mem_cons_self
  | cons name order induction =>
      rw [sectionMessages, List.flatMap_cons] at begins
      cases found : sectionMap sections name with
      | some data =>
          rw [found] at begins
          cases begins
          exact Or.inl ⟨name, List.mem_cons_self, rfl⟩
      | none =>
          rw [found] at begins
          rcases induction begins with ⟨other, later, rfl⟩ | last
          · exact Or.inl ⟨other, List.mem_cons_of_mem _ later, rfl⟩
          · exact Or.inr last

/-- A section that is there on one side only would announce itself. -/
theorem sectionMessages_absurd
    {left right : List (String × Bytes)} {name : String}
    {order : List String} {leftFinal rightFinal : List Bytes} {data : Bytes}
    (unique : name ∉ order)
    (apart : ∀ message ∈ rightFinal, message ≠ nameMessage name)
    (equal :
      nameMessage name :: data ::
          (sectionMessages left order ++ leftFinal) =
        sectionMessages right order ++ rightFinal) :
    False := by
  rcases eq_nameMessage_of_head equal.symm with ⟨other, later, same⟩ | last
  · cases nameMessage_injective same
    exact unique later
  · exact apart _ last rfl

/-- Equal messages come from equal sections. -/
theorem sectionMap_eq_of_messages
    {left right : List (String × Bytes)} {order : List String}
    {leftFinal rightFinal : List Bytes}
    (unique : order.Nodup)
    (leftApart :
      ∀ message ∈ leftFinal, ∀ name ∈ order, message ≠ nameMessage name)
    (rightApart :
      ∀ message ∈ rightFinal, ∀ name ∈ order, message ≠ nameMessage name)
    (equal :
      sectionMessages left order ++ leftFinal =
        sectionMessages right order ++ rightFinal) :
    ∀ name ∈ order, sectionMap left name = sectionMap right name := by
  induction order with
  | nil =>
      intro name member
      cases member
  | cons first order induction =>
      rcases List.nodup_cons.1 unique with ⟨notLater, laterUnique⟩
      have later := fun same =>
        induction laterUnique
          (fun message member name ordered =>
            leftApart message member name (List.mem_cons_of_mem _ ordered))
          (fun message member name ordered =>
            rightApart message member name (List.mem_cons_of_mem _ ordered))
          same
      have leftFirst := fun message member =>
        leftApart message member first List.mem_cons_self
      have rightFirst := fun message member =>
        rightApart message member first List.mem_cons_self
      simp only [sectionMessages, List.flatMap_cons] at equal
      cases onLeft : sectionMap left first with
      | none =>
          cases onRight : sectionMap right first with
          | none =>
              rw [onLeft, onRight] at equal
              rintro name (_ | ⟨_, member⟩)
              · rw [onLeft, onRight]
              · exact later equal name member
          | some data =>
              rw [onLeft, onRight] at equal
              exact
                (sectionMessages_absurd notLater leftFirst equal.symm).elim
      | some data =>
          cases onRight : sectionMap right first with
          | none =>
              rw [onLeft, onRight] at equal
              exact (sectionMessages_absurd notLater rightFirst equal).elim
          | some other =>
              rw [onLeft, onRight] at equal
              injection equal with _ behindName
              injection behindName with sameData behindData
              cases sameData
              rintro name (_ | ⟨_, member⟩)
              · rw [onLeft, onRight]
              · exact later behindData name member

/--
Equal values of RTMR[2] come from UKIs with the same measured sections, unless
a hash of the two computations collides or an extend returns to zero.
-/
theorem computeRtmr2Uki_binds_sections
    {left right : List (String × Bytes)} {rtmr2 : Block 48}
    {leftCount rightCount : Nat}
    (leftComputed : computeRtmr2Uki sha384 left = .ok (rtmr2, leftCount))
    (rightComputed : computeRtmr2Uki sha384 right = .ok (rtmr2, rightCount))
    (noCollision :
      Set.InjOn sha384
        {message |
          message ∈ hashedMessages sha384 left ∨
            message ∈ hashedMessages sha384 right})
    (leftNoZero :
      ∀ message ∈ extendMessages sha384 left,
        sha384 message ≠ Block.zero 48)
    (rightNoZero :
      ∀ message ∈ extendMessages sha384 right,
        sha384 message ≠ Block.zero 48) :
    ∀ name ∈ ukiMeasurementOrder,
      sectionMap left name = sectionMap right name := by
  have sameDigests :
      (eventMessages left).map sha384 = (eventMessages right).map sha384 := by
    apply
      chain_injective extendMessage_injective ?_ leftNoZero rightNoZero
        ((computeRtmr2Uki_eq_ok leftComputed).symm.trans
          (computeRtmr2Uki_eq_ok rightComputed))
    refine noCollision.mono ?_
    rintro message (inLeft | inRight)
    · exact Or.inl (List.mem_append_right _ inLeft)
    · exact Or.inr (List.mem_append_right _ inRight)
  have sameMessages : eventMessages left = eventMessages right := by
    refine eq_of_map_hash_eq (noCollision.mono ?_) sameDigests
    rintro message (inLeft | inRight)
    · exact Or.inl (List.mem_append_left _ inLeft)
    · exact Or.inr (List.mem_append_left _ inRight)
  exact
    sectionMap_eq_of_messages nodup_ukiMeasurementOrder
      (fun _ member _ ordered =>
        ne_nameMessage_of_mem_finalMessages member ordered)
      (fun _ member _ ordered =>
        ne_nameMessage_of_mem_finalMessages member ordered)
      sameMessages

end

/-! ## Two lists with the same kernel -/

/-- A hash that keeps the last bytes, last one first. -/
def lastBytes (bytes : Bytes) : Block 48 :=
  ⟨padTo 48 bytes.reverse, length_padTo 48 bytes.reverse⟩

/-- One list hides an earlier kernel, the other has a section that is not
measured. -/
theorem computeRtmr2Uki_binds_sections_hiddenKernel :
    ∃ rtmr2,
      computeRtmr2Uki lastBytes [(".linux", [9]), (".linux", [1])] =
          .ok (rtmr2, 2) ∧
        computeRtmr2Uki lastBytes [(".linux", [1]), (".other", [2])] =
            .ok (rtmr2, 2) ∧
          ∀ name ∈ ukiMeasurementOrder,
            sectionMap [(".linux", [9]), (".linux", [1])] name =
              sectionMap [(".linux", [1]), (".other", [2])] name := by
  refine ⟨_, rfl, rfl, ?_⟩
  have apart :
      ∀ left ∈
          hashedMessages lastBytes [(".linux", [9]), (".linux", [1])] ++
            hashedMessages lastBytes [(".linux", [1]), (".other", [2])],
        ∀ right ∈
            hashedMessages lastBytes [(".linux", [9]), (".linux", [1])] ++
              hashedMessages lastBytes [(".linux", [1]), (".other", [2])],
          lastBytes left = lastBytes right → left = right := by
    decide +kernel
  apply computeRtmr2Uki_binds_sections rfl rfl
  · intro left leftHashed right rightHashed
    exact
      apart left (List.mem_append.2 leftHashed) right
        (List.mem_append.2 rightHashed)
  · decide +kernel
  · decide +kernel

/-- A hash that counts in base 257 and keeps the last digits. -/
def countBytes (bytes : Bytes) : Block 48 :=
  ⟨leBytes 48 (bytes.foldl (fun value byte => value * 257 + byte.toNat + 1) 0),
    length_leBytes 48 _⟩

end Confos.Tdx.UkiBinding
