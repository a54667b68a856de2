import Confos.Library.Fallible
import Confos.Tdx.CcelRecords

/-!
# Decoding complete event logs

One turn of the parser reads one encoded entry, and an entry is what every
turn that reads a record has read.  Both directions are carried through the
loop, and a log cut inside a record stops the loop at that record.
-/

namespace Confos.Tdx.CcelRoundTrip

open Confos.Library.ByteStrings
open Confos.Library.Fallible
open Confos.Tdx.Ccel
open Confos.Tdx.CcelRecords

section

variable {data : Bytes} {offset : Nat} {rest : Bytes}

/-! ## Numbers -/

theorem u16At_eq
    {value : UInt16}
    (reads : ReadsAt data offset (leBytes 2 value.toNat ++ rest)) :
    u16At data offset = value := by
  rw [u16At, reads.slice_eq (by simp),
    ofLeBytes_leBytes_of_lt value.toNat_lt, UInt16.ofNat_toNat]

theorem toNat_u32At_eq
    {value : Nat}
    (reads : ReadsAt data offset (leBytes 4 value ++ rest))
    (small : value < 2 ^ 32) :
    (u32At data offset).toNat = value := by
  rw [u32At, reads.slice_eq (by simp), ofLeBytes_leBytes_of_lt small,
    UInt32.toNat_ofNat_of_lt' small]

theorem u32At_eq
    {value : UInt32}
    (reads : ReadsAt data offset (leBytes 4 value.toNat ++ rest)) :
    u32At data offset = value :=
  UInt32.toNat_inj.1 (toNat_u32At_eq reads value.toNat_lt)

theorem leBytes_u16At (fits : offset + 2 ≤ data.length) :
    leBytes 2 (u16At data offset).toNat = slice data offset 2 := by
  rw [u16At, UInt16.toNat_ofNat_of_lt' (ofLeBytes_slice_lt data offset 2),
    leBytes_ofLeBytes_slice fits]

theorem leBytes_u32At (fits : offset + 4 ≤ data.length) :
    leBytes 4 (u32At data offset).toNat = slice data offset 4 := by
  rw [u32At, UInt32.toNat_ofNat_of_lt' (ofLeBytes_slice_lt data offset 4),
    leBytes_ofLeBytes_slice fits]

/-! ## Digests -/

theorem parseDigests_encode
    (recordOffset : Nat) (sha384Digest : Bytes)
    {digests : List TaggedDigest}
    (reads :
      ReadsAt data offset (digests.flatMap TaggedDigest.encode ++ rest)) :
    parseDigests data recordOffset digests.length offset sha384Digest =
      .ok (some
        (offset + (digests.flatMap TaggedDigest.encode).length,
          (sha384Of digests).getD sha384Digest)) := by
  induction digests generalizing offset sha384Digest with
  | nil => rfl
  | cons tagged digests induction =>
      rw [List.flatMap_cons, TaggedDigest.encode, List.append_assoc,
        List.append_assoc] at reads
      have behindId := reads.advance (length_leBytes 2 _)
      have behindDigest := behindId.advance tagged.digest.length_eq
      have idFits := reads.fits (length_leBytes 2 _)
      have digestFits := behindId.fits tagged.digest.length_eq
      rw [List.length_cons, parseDigests, if_neg (by omega), u16At_eq reads]
      dsimp only
      rw [digestSize_algoId]
      dsimp only
      rw [if_neg (by omega), induction _ behindDigest, sha384Of_cons,
        behindId.slice_eq tagged.digest.length_eq, TaggedDigest.sha384?]
      have length :
          offset + 2 + tagged.algorithm.size +
              (digests.flatMap TaggedDigest.encode).length =
            offset +
              ((tagged :: digests).flatMap TaggedDigest.encode).length := by
        rw [List.flatMap_cons, List.length_append,
          TaggedDigest.length_encode]
        omega
      rw [length]
      by_cases isSha384 : tagged.algorithm = .sha384
      · rw [if_pos isSha384, if_pos (algoId_eq_sha384_iff.2 isSha384)]
        rfl
      · rw [if_neg isSha384, if_neg (mt algoId_eq_sha384_iff.1 isSha384)]
        rfl

/-- Whatever digests are read are the encoding of a digest list. -/
theorem exists_digests_of_parseDigests
    {recordOffset count next : Nat} {sha384Digest digest : Bytes}
    (inside : offset ≤ data.length)
    (parsed :
      parseDigests data recordOffset count offset sha384Digest =
        .ok (some (next, digest))) :
    ∃ digests : List TaggedDigest,
      digests.length = count ∧
        ReadsAt data offset
          (digests.flatMap TaggedDigest.encode ++ data.drop next) ∧
        next = offset + (digests.flatMap TaggedDigest.encode).length := by
  induction count generalizing offset sha384Digest with
  | zero =>
      cases parsed
      exact ⟨[], rfl, ReadsAt.of_le inside, rfl⟩
  | succ count induction =>
      rw [parseDigests] at parsed
      split at parsed
      · cases parsed
      · rename_i idFits
        dsimp only at parsed
        split at parsed
        · cases parsed
        · rename_i size known
          split at parsed
          · cases parsed
          · rename_i digestFits
            obtain ⟨algorithm, algoId, rfl⟩ :=
              exists_algorithm_of_digestSize known
            have idInside : offset + 2 ≤ data.length := not_lt.1 idFits
            have digestInside :
                offset + 2 + algorithm.size ≤ data.length :=
              not_lt.1 digestFits
            obtain ⟨digests, rfl, reads, rfl⟩ :=
              induction digestInside parsed
            refine
              ⟨⟨algorithm, slice data (offset + 2) algorithm.size,
                  length_slice_of_le digestInside⟩ :: digests,
                rfl, ?_, ?_⟩
            · have whole := ReadsAt.of_le inside
              have idSplit := whole.split _ idInside
              have digestSplit := idSplit.2.split _ digestInside
              rw [idSplit.1, digestSplit.1, reads.drop_eq] at whole
              rw [List.flatMap_cons, TaggedDigest.encode, algoId,
                leBytes_u16At idInside, List.append_assoc, List.append_assoc]
              exact whole
            · rw [List.flatMap_cons, List.length_append,
                TaggedDigest.length_encode]
              dsimp only
              omega

/-! ## Entries -/

/-- One turn over an encoded entry reads that entry and nothing else. -/
theorem parseRecord_encode
    (entry : LogEntry)
    (reads : ReadsAt data offset (entry.encode ++ rest)) :
    parseRecord data offset =
      if entry.IsTerminator then
        .ok .terminated
      else
        .ok (.record entry.event (offset + entry.encode.length)) := by
  have total := entry.length_encode
  simp only [LogEntry.encode, List.append_assoc] at reads
  have mrIndex : u32At data offset = entry.mrIndex := u32At_eq reads
  have atType := reads.advance (length_leBytes 4 _)
  have eventType : u32At data (offset + 4) = entry.eventType :=
    u32At_eq atType
  have atCount := atType.advance (length_leBytes 4 _)
  have count :
      (u32At data (offset + 8)).toNat = entry.digests.length :=
    toNat_u32At_eq atCount
      (lt_of_le_of_lt entry.digests_le (by decide))
  have atDigests := atCount.advance (length_leBytes 4 _)
  have digests := parseDigests_encode offset [] atDigests
  have atSize := atDigests.advance rfl
  have size := toNat_u32At_eq atSize entry.data_lt
  have atData := atSize.advance (length_leBytes 4 _)
  have dataFits := atData.fits rfl
  have fields :
      ReadsFields data offset
        (offset + 4 + 4 + 4 + entry.encodeDigests.length)
        ((sha384Of entry.digests).getD []) :=
    { head_fits := atCount.fits (length_leBytes 4 _)
      mrIndex_ne := mrIndex ▸ entry.mrIndex_ne
      count_le := by
        rw [UInt32.le_iff_toNat_le, count]
        exact entry.digests_le
      digests := by
        rw [count]
        exact digests
      data_fits := by
        rw [size]
        exact dataFits }
  have terminator :
      IsTerminator data offset
          (offset + 4 + 4 + 4 + entry.encodeDigests.length) ↔
        entry.IsTerminator := by
    rw [IsTerminator, mrIndex, eventType, size, LogEntry.IsTerminator]
  have next :
      offset + 4 + 4 + 4 + entry.encodeDigests.length + 4 +
          entry.eventData.length =
        offset + entry.encode.length := by
    omega
  rw [fields.parseRecord_eq, mrIndex, eventType, size, next,
    atData.slice_eq rfl]
  simp only [terminator, LogEntry.event]

/-- Whatever fields a turn reads are the encoding of an entry. -/
theorem exists_entry_of_fields
    {pos : Nat} {sha384Digest : Bytes}
    (fields : ReadsFields data offset pos sha384Digest) :
    ∃ entry : LogEntry,
      ReadsAt data offset
        (entry.encode ++
          data.drop (pos + 4 + (u32At data pos).toNat)) := by
  have headFits := fields.head_fits
  have dataFits := fields.data_fits
  obtain ⟨digests, count, readsDigests, rfl⟩ :=
    exists_digests_of_parseDigests headFits fields.digests
  have whole : ReadsAt data offset (data.drop offset) :=
    ReadsAt.of_le (by omega)
  have mrIndexSplit := whole.split 4 (by omega)
  have typeSplit := mrIndexSplit.2.split 4 (by omega)
  have countSplit := typeSplit.2.split 4 (by omega)
  have atSize := readsDigests.advance rfl
  have sizeSplit := atSize.split 4 (by omega)
  have dataSplit := sizeSplit.2.split _ dataFits
  refine
    ⟨{ mrIndex := u32At data offset
       eventType := u32At data (offset + 4)
       digests
       eventData :=
        slice data _ (u32At data _).toNat
       digests_le := by
        rw [count]
        exact fields.count_le
       data_lt := by
        rw [length_slice_of_le dataFits]
        exact UInt32.toNat_lt _
       mrIndex_ne := fields.mrIndex_ne }, ?_⟩
  rw [mrIndexSplit.1, typeSplit.1, countSplit.1, readsDigests.drop_eq,
    sizeSplit.1, dataSplit.1] at whole
  simp only [LogEntry.encode, LogEntry.encodeDigests, List.append_assoc]
  rw [leBytes_u32At (by omega), leBytes_u32At (by omega), count,
    leBytes_u32At (by omega), length_slice_of_le dataFits,
    leBytes_u32At (by omega)]
  exact whole

/-- The turn that reads a record has read an encoded one. -/
theorem exists_record_of_turn
    {event : CcelEvent} {next : Nat}
    (parsed : parseRecord data offset = .ok (.record event next)) :
    ∃ record : LogRecord,
      ReadsAt data offset (record.encode ++ data.drop next) ∧
        event = record.event ∧ next = offset + record.encode.length := by
  have turn := parseRecord_cases data offset
  rw [parsed] at turn
  cases turn with
  | record fields continues =>
      obtain ⟨entry, reads⟩ := exists_entry_of_fields fields
      rw [parseRecord_encode entry reads] at parsed
      split at parsed
      · cases parsed
      · rename_i entryContinues
        obtain ⟨sameEvent, sameNext⟩ :=
          Turn.record.inj (Except.ok.inj parsed)
        exact
          ⟨⟨entry, entryContinues⟩, reads, sameEvent.symm, sameNext.symm⟩

/-- The turn that ends the log has read a tail that ends it. -/
theorem exists_tail_of_turn
    (parsed : parseRecord data offset = .ok .terminated) :
    ∃ tail : LogTail,
      ReadsAt data offset tail.encode ∧ tail.terminates = true := by
  have turn := parseRecord_cases data offset
  rw [parsed] at turn
  cases turn with
  | padding fits filled =>
      have whole : ReadsAt data offset (data.drop offset) :=
        ReadsAt.of_le (by omega)
      have split := whole.split 4 (by omega)
      have long : 4 ≤ (data.drop (offset + 4)).length := by
        rw [List.length_drop]
        omega
      refine ⟨.padding _ long, ?_, rfl⟩
      have bytes := @leBytes_u32At data offset (by omega)
      rw [filled] at bytes
      rw [split.1, ← bytes] at whole
      exact whole
  | terminator fields ends =>
      obtain ⟨entry, reads⟩ := exists_entry_of_fields fields
      rw [parseRecord_encode entry reads] at parsed
      split at parsed
      · rename_i entryEnds
        exact ⟨.terminator entry entryEnds _, reads, rfl⟩
      · cases parsed

/-! ## The loop -/

/-- The loop reads encoded records one after the other. -/
theorem scanEvents_records
    {events : List CcelEvent} {records : List LogRecord}
    (reads : ReadsAt data offset (encodeRecords records ++ rest))
    (few :
      events.length + (recordEvents records).length ≤ maxEvents) :
    scanEvents data offset events =
      scanEvents data (offset + (encodeRecords records).length)
        (events ++ recordEvents records) := by
  induction records generalizing offset events with
  | nil => simp [encodeRecords, recordEvents]
  | cons record records induction =>
      rw [encodeRecords, List.flatMap_cons, List.append_assoc] at reads
      have behind := reads.advance rfl
      have fits := reads.fits rfl
      have total := record.length_encode
      have inside : offset < data.length := by omega
      have turn := parseRecord_encode record.toLogEntry reads
      rw [if_neg record.continues] at turn
      have length :
          offset + record.encode.length + (encodeRecords records).length =
            offset + (encodeRecords (record :: records)).length := by
        rw [encodeRecords, encodeRecords, List.flatMap_cons,
          List.length_append, Nat.add_assoc]
      have kept := record.event?_eq
      rw [scanEvents, if_pos inside, turn]
      dsimp only
      by_cases empty : record.event.sha384Digest.isEmpty
      · rw [if_pos empty] at kept
        have same :
            recordEvents (record :: records) = recordEvents records := by
          rw [recordEvents, List.filterMap_cons_none kept, recordEvents]
        rw [same] at few ⊢
        rw [if_pos empty, induction behind few, length]
      · rw [if_neg empty] at kept
        have grown :
            recordEvents (record :: records) =
              record.event :: recordEvents records := by
          rw [recordEvents, List.filterMap_cons_some kept, recordEvents]
        rw [grown] at few ⊢
        rw [List.length_cons] at few
        have room : ¬ maxEvents ≤ events.length := by omega
        have fewer :
            (events ++ [record.event]).length +
                (recordEvents records).length ≤ maxEvents := by
          rw [List.length_append, List.length_singleton]
          omega
        rw [if_neg empty, if_neg room, induction behind fewer, length,
          List.append_assoc, List.singleton_append]

/-- The loop stops at the tail. -/
theorem scanEvents_tail
    {events : List CcelEvent} (tail : LogTail)
    (reads : ReadsAt data offset tail.encode) :
    scanEvents data offset events =
      .ok { events, offset, terminated := tail.terminates } := by
  have total := reads.length_eq
  cases tail with
  | empty =>
      have outside : ¬ offset < data.length := by
        rw [LogTail.encode, List.length_nil] at total
        omega
      rw [scanEvents, if_neg outside]
      rfl
  | terminator entry ends behind =>
      have turn := parseRecord_encode entry reads
      have positive := entry.length_encode
      have inside : offset < data.length := by
        rw [LogTail.encode, List.length_append] at total
        omega
      rw [if_pos ends] at turn
      rw [scanEvents, if_pos inside, turn]
      rfl
  | padding behind long =>
      rw [LogTail.encode] at reads total
      rw [List.length_append, length_leBytes] at total
      have filled : u32At data offset = 0xFFFFFFFF := u32At_eq reads
      have inside : offset < data.length := by omega
      have turn : parseRecord data offset = .ok .terminated := by
        rw [parseRecord, if_neg (by omega), if_pos filled]
      rw [scanEvents, if_pos inside, turn]
      rfl

/-- A loop that does not stop inside a record has read records and a tail. -/
theorem exists_records_of_scanEvents
    {events : List CcelEvent} {scan : Scan}
    (inside : offset ≤ data.length)
    (room : events.length ≤ maxEvents)
    (scanned : scanEvents data offset events = .ok scan)
    (complete : scan.terminated = true ∨ data.length ≤ scan.offset) :
    ∃ (records : List LogRecord) (tail : LogTail),
      ReadsAt data offset (encodeRecords records ++ tail.encode) ∧
        scan.events = events ++ recordEvents records ∧
        scan.events.length ≤ maxEvents := by
  induction offset, events using scanEvents.induct data with
  | case1 offset events below message turn =>
      rw [scanEvents, if_pos below, turn] at scanned
      cases scanned
  | case2 offset events below turn =>
      rw [scanEvents, if_pos below, turn] at scanned
      cases scanned
      rcases complete with terminated | beyond
      · cases terminated
      · exact absurd below (not_lt.2 beyond)
  | case3 offset events below turn =>
      rw [scanEvents, if_pos below, turn] at scanned
      cases scanned
      obtain ⟨tail, reads, -⟩ := exists_tail_of_turn turn
      exact ⟨[], tail, reads, by simp [recordEvents], room⟩
  | case4 offset events below event next turn empty induction =>
      rw [scanEvents, if_pos below, turn] at scanned
      dsimp only at scanned
      rw [if_pos empty] at scanned
      obtain ⟨record, reads, rfl, rfl⟩ := exists_record_of_turn turn
      have fits := reads.fits rfl
      obtain ⟨records, tail, behind, read, few⟩ :=
        induction fits room scanned
      have kept := record.event?_eq
      rw [if_pos empty] at kept
      refine ⟨record :: records, tail, ?_, ?_, few⟩
      · rw [behind.drop_eq] at reads
        rw [encodeRecords, List.flatMap_cons, List.append_assoc]
        exact reads
      · rw [read, recordEvents, recordEvents, List.filterMap_cons_none kept]
  | case5 offset events below event next turn empty full =>
      rw [scanEvents, if_pos below, turn] at scanned
      dsimp only at scanned
      rw [if_neg empty, if_pos full] at scanned
      cases scanned
  | case6 offset events below event next turn empty notFull induction =>
      rw [scanEvents, if_pos below, turn] at scanned
      dsimp only at scanned
      rw [if_neg empty, if_neg notFull] at scanned
      obtain ⟨record, reads, rfl, rfl⟩ := exists_record_of_turn turn
      have fits := reads.fits rfl
      have stillRoom : (events ++ [record.event]).length ≤ maxEvents := by
        rw [List.length_append, List.length_singleton]
        omega
      obtain ⟨records, tail, behind, read, few⟩ :=
        induction fits stillRoom scanned
      have kept := record.event?_eq
      rw [if_neg empty] at kept
      refine ⟨record :: records, tail, ?_, ?_, few⟩
      · rw [behind.drop_eq] at reads
        rw [encodeRecords, List.flatMap_cons, List.append_assoc]
        exact reads
      · rw [read, recordEvents, recordEvents,
          List.filterMap_cons_some kept, List.append_assoc,
          List.singleton_append]
  | case7 offset events beyond =>
      rw [scanEvents, if_neg beyond] at scanned
      cases scanned
      have stop : offset = data.length := by omega
      subst stop
      exact ⟨[], .empty, ⟨rfl, by simp [encodeRecords, LogTail.encode]⟩,
        by simp [recordEvents], room⟩

/-! ## Cut logs -/

/-- The digest loop over a cut log either reads the same or runs past the end. -/
theorem parseDigests_take
    {kept recordOffset count next : Nat} {sha384Digest digest : Bytes}
    (inside : kept ≤ data.length)
    (parsed :
      parseDigests data recordOffset count offset sha384Digest =
        .ok (some (next, digest))) :
    parseDigests (data.take kept) recordOffset count offset sha384Digest =
        .ok none ∨
      next ≤ max kept offset ∧
        parseDigests (data.take kept) recordOffset count offset
            sha384Digest =
          .ok (some (next, digest)) := by
  have length : (data.take kept).length = kept := by simp [inside]
  induction count generalizing offset sha384Digest with
  | zero =>
      cases parsed
      exact Or.inr ⟨le_max_right _ _, rfl⟩
  | succ count induction =>
      rw [parseDigests] at parsed
      rw [parseDigests, length]
      by_cases idFits : kept < offset + 2
      · exact Or.inl (if_pos idFits)
      · rw [if_neg (by omega)] at parsed
        rw [if_neg idFits]
        have sameId : u16At (data.take kept) offset = u16At data offset := by
          rw [u16At, u16At, slice_take (not_lt.1 idFits)]
        rw [sameId]
        dsimp only at parsed ⊢
        cases known : digestSize (u16At data offset) with
        | none =>
            rw [known] at parsed
            cases parsed
        | some size =>
            rw [known] at parsed
            dsimp only at parsed ⊢
            by_cases digestFits : kept < offset + 2 + size
            · exact Or.inl (if_pos digestFits)
            · rw [if_neg (by omega)] at parsed
              rw [if_neg digestFits, slice_take (not_lt.1 digestFits)]
              rcases induction parsed with cut | ⟨bound, same⟩
              · exact Or.inl cut
              · refine Or.inr ⟨?_, same⟩
                rw [max_eq_left (not_lt.1 digestFits)] at bound
                exact le_max_of_le_left bound

/-- A record the log is cut inside of is a truncated one. -/
theorem parseRecord_take
    {kept next : Nat} {event : CcelEvent}
    (parsed : parseRecord data offset = .ok (.record event next))
    (cut : kept < next) :
    parseRecord (data.take kept) offset = .ok .truncated := by
  have inside : kept ≤ data.length :=
    le_trans cut.le (parseRecord_next parsed).2
  have length : (data.take kept).length = kept := by simp [inside]
  have same :
      ∀ position, position + 4 ≤ kept →
        u32At (data.take kept) position = u32At data position := by
    intro position fits
    rw [u32At, u32At, slice_take fits]
  have turn := parseRecord_cases data offset
  rw [parsed] at turn
  cases turn with
  | record fields continues =>
      rename_i pos sha384Digest
      have headFits := fields.head_fits
      rw [parseRecord, length]
      by_cases typeFits : kept < offset + 8
      · exact if_pos typeFits
      · rw [if_neg typeFits, same offset (by omega),
          if_neg fields.mrIndex_ne]
        by_cases countFits : kept < offset + 8 + 4
        · exact if_pos countFits
        · rw [if_neg countFits, same (offset + 8) (by omega),
            if_neg (UInt32.not_lt.2 fields.count_le)]
          rcases parseDigests_take inside fields.digests with
            digests | ⟨bound, digests⟩
          · rw [digests]
          · rw [digests]
            dsimp only
            by_cases sizeFits : kept < pos + 4
            · exact if_pos sizeFits
            · rw [if_neg sizeFits, same pos (by omega)]
              exact if_pos cut

end

/-! ## Complete logs -/

/-- A Spec ID header with records the parser has room for. -/
structure EventLog where
  header : SpecIdHeader
  records : List LogRecord
  few : (recordEvents records).length ≤ maxEvents

def EventLog.encode (log : EventLog) : Bytes :=
  log.header.encode ++ encodeRecords log.records

/-- Where the record of this number starts, and the one before it ends. -/
def EventLog.boundary (log : EventLog) (count : Nat) : Nat :=
  log.header.encode.length + (encodeRecords (log.records.take count)).length

/-- The first records of a log. -/
def EventLog.firstRecords (log : EventLog) (count : Nat) : EventLog where
  header := log.header
  records := log.records.take count
  few := by
    have sublist :
        (recordEvents (log.records.take count)).Sublist
          (recordEvents log.records) :=
      (List.take_sublist count log.records).filterMap _
    exact le_trans sublist.length_le log.few

theorem EventLog.encode_eq_firstRecords
    (log : EventLog) (count : Nat) :
    log.encode =
      (log.firstRecords count).encode ++
        encodeRecords (log.records.drop count) := by
  rw [encode, encode, firstRecords, List.append_assoc, encodeRecords,
    encodeRecords, encodeRecords, ← List.flatMap_append,
    List.take_append_drop]

theorem EventLog.length_firstRecords
    (log : EventLog) (count : Nat) :
    (log.firstRecords count).encode.length = log.boundary count := by
  rw [encode, List.length_append]
  rfl

theorem EventLog.encodeRecords_split
    (log : EventLog) {count : Nat}
    (position : count < log.records.length) :
    encodeRecords log.records =
      encodeRecords (log.records.take count) ++
        (log.records[count].encode ++
          encodeRecords (log.records.drop (count + 1))) := by
  have whole := List.take_append_drop count log.records
  rw [List.drop_eq_getElem_cons position] at whole
  have encoded := congrArg encodeRecords whole
  rw [encodeRecords, List.flatMap_append, List.flatMap_cons] at encoded
  exact encoded.symm

/-- Behind a Spec ID header the parser is its loop over the records. -/
theorem parseCcel_header
    {data rest : Bytes} (header : SpecIdHeader)
    (reads : ReadsAt data 0 (header.encode ++ rest)) :
    parseCcel data =
      scanEvents data header.encode.length [] >>= finishScan data := by
  have fits := reads.fits header.length_encode
  simp only [SpecIdHeader.encode, List.append_assoc] at reads
  have atType := reads.advance header.pcrIndex.length_eq
  have eventType : u32At data 4 = 3 := u32At_eq atType
  have atDigest := atType.advance (length_leBytes 4 _)
  have atSize := atDigest.advance header.digest.length_eq
  have size : (u32At data 28).toNat = header.body.length :=
    toNat_u32At_eq atSize header.body_lt
  rw [parseCcel, if_neg (by omega), if_neg (not_not.2 eventType), size]
  dsimp only
  rw [if_neg (by omega), header.length_encode]

/-- Data the parser does not refuse for its header starts with a Spec ID header. -/
theorem exists_header_of_parseCcel
    {data : Bytes} {events : List CcelEvent}
    (parsed : parseCcel data = .ok events) :
    ∃ (header : SpecIdHeader) (rest : Bytes),
      ReadsAt data 0 (header.encode ++ rest) := by
  rw [parseCcel] at parsed
  split at parsed
  · cases parsed
  · rename_i long
    split at parsed
    · cases parsed
    · rename_i eventType
      dsimp only at parsed
      split at parsed
      · cases parsed
      · rename_i bodyFits
        have whole : ReadsAt data 0 (data.drop 0) :=
          ReadsAt.of_le (Nat.zero_le _)
        have pcrIndexSplit := whole.split 4 (by omega)
        have typeSplit := pcrIndexSplit.2.split 4 (by omega)
        have digestSplit := typeSplit.2.split 20 (by omega)
        have sizeSplit := digestSplit.2.split 4 (by omega)
        have bodySplit :=
          sizeSplit.2.split (u32At data 28).toNat (by omega)
        have bodyLength :
            (slice data 32 (u32At data 28).toNat).length =
              (u32At data 28).toNat :=
          length_slice_of_le (by omega)
        refine
          ⟨{ pcrIndex :=
              ⟨slice data 0 4, length_slice_of_le (by omega)⟩
             digest :=
              ⟨slice data 8 20, length_slice_of_le (by omega)⟩
             body := slice data 32 (u32At data 28).toNat
             body_lt := by
              rw [bodyLength]
              exact UInt32.toNat_lt _ },
            data.drop (32 + (u32At data 28).toNat), ?_⟩
        have three : leBytes 4 3 = slice data 4 4 := by
          have bytes := @leBytes_u32At data 4 (by omega)
          rwa [not_not.1 eventType] at bytes
        rw [pcrIndexSplit.1, typeSplit.1, digestSplit.1, sizeSplit.1,
          bodySplit.1] at whole
        simp only [SpecIdHeader.encode, List.append_assoc]
        rw [three, bodyLength, leBytes_u32At (by omega)]
        exact whole

/-- A complete log is accepted with the events of its records. -/
theorem parseCcel_encode (log : EventLog) (tail : LogTail) :
    parseCcel (log.encode ++ tail.encode) =
      .ok (recordEvents log.records) := by
  have reads :
      ReadsAt (log.encode ++ tail.encode) 0
        (log.header.encode ++
          (encodeRecords log.records ++ tail.encode)) := by
    constructor
    · simp [EventLog.encode]
    · simp [EventLog.encode]
  have atRecords := reads.advance rfl
  rw [Nat.zero_add] at atRecords
  have few : ([] : List CcelEvent).length +
      (recordEvents log.records).length ≤ maxEvents := by
    simpa using log.few
  have atTail := atRecords.advance rfl
  have total := atTail.length_eq
  rw [parseCcel_header log.header reads, scanEvents_records atRecords few,
    scanEvents_tail tail atTail]
  apply finishScan_eq_ok_iff.2
  refine ⟨?_, rfl⟩
  cases tail with
  | empty => exact Or.inr total.ge
  | terminator entry ends rest => exact Or.inl rfl
  | padding rest long => exact Or.inl rfl

/-- Accepted data is a complete log. -/
theorem exists_log_of_parseCcel
    {data : Bytes} {events : List CcelEvent}
    (parsed : parseCcel data = .ok events) :
    ∃ (log : EventLog) (tail : LogTail),
      data = log.encode ++ tail.encode ∧
        events = recordEvents log.records := by
  obtain ⟨header, rest, reads⟩ := exists_header_of_parseCcel parsed
  rw [parseCcel_header header reads] at parsed
  have inside := reads.fits rfl
  rw [Nat.zero_add] at inside
  obtain ⟨scan, scanned, finished⟩ := bind_eq_ok.1 parsed
  obtain ⟨complete, rfl⟩ := finishScan_eq_ok_iff.1 finished
  obtain ⟨records, tail, readsRecords, read, few⟩ :=
    exists_records_of_scanEvents inside (Nat.zero_le _) scanned complete
  rw [List.nil_append] at read
  refine ⟨⟨header, records, read ▸ few⟩, tail, ?_, read⟩
  have whole := reads.drop_eq
  have behind := reads.advance rfl
  rw [Nat.zero_add] at behind
  rw [← behind.drop_eq, readsRecords.drop_eq, List.drop_zero] at whole
  rw [EventLog.encode, List.append_assoc]
  exact whole

/-- A log cut where a record starts is the log of the records before it. -/
theorem parseCcel_boundary (log : EventLog) (count : Nat) :
    parseCcel (log.encode.take (log.boundary count)) =
      .ok (recordEvents (log.records.take count)) := by
  rw [log.encode_eq_firstRecords count, ← log.length_firstRecords count,
    List.take_left]
  have accepted := parseCcel_encode (log.firstRecords count) .empty
  rwa [LogTail.encode, List.append_nil] at accepted

/-- A log cut inside a record is refused. -/
theorem parseCcel_cut
    (log : EventLog) {count cut : Nat}
    (behind : log.boundary count < cut)
    (before : cut < log.boundary (count + 1)) :
    ∃ message, parseCcel (log.encode.take cut) = .error message := by
  have position : count < log.records.length := by
    by_contra last
    rw [EventLog.boundary, List.take_of_length_le (not_lt.1 last)] at behind
    rw [EventLog.boundary, List.take_of_length_le (by omega)] at before
    exact absurd before (not_lt.2 behind.le)
  have split := log.encodeRecords_split position
  have nextBoundary :
      log.boundary (count + 1) =
        log.boundary count + log.records[count].encode.length := by
    rw [EventLog.boundary, EventLog.boundary,
      List.take_succ_eq_append_getElem position, encodeRecords,
      List.flatMap_append, List.length_append, Nat.add_assoc]
    simp [encodeRecords]
  have reads :
      ReadsAt log.encode 0
        (log.header.encode ++ encodeRecords log.records) := by
    constructor
    · rw [Nat.zero_add, EventLog.encode]
    · rfl
  have atRecords := reads.advance rfl
  rw [Nat.zero_add, split] at atRecords
  have atRecord := atRecords.advance rfl
  have recordFits := atRecord.fits rfl
  have inside : cut ≤ log.encode.length := by
    rw [nextBoundary] at before
    exact le_trans before.le recordFits
  have headerBehind : 0 + log.header.encode.length ≤ cut := by
    rw [EventLog.boundary] at behind
    omega
  have few :
      ([] : List CcelEvent).length +
          (recordEvents (log.records.take count)).length ≤ maxEvents := by
    have fewer := (log.firstRecords count).few
    rw [List.length_nil, Nat.zero_add]
    exact fewer
  have turn := parseRecord_encode _ atRecord
  rw [if_neg log.records[count].continues] at turn
  have truncated :
      parseRecord (log.encode.take cut) (log.boundary count) =
        .ok .truncated :=
    parseRecord_take turn (by rwa [nextBoundary] at before)
  have length : (log.encode.take cut).length = cut := by
    rw [List.length_take, Nat.min_eq_left inside]
  have headerReads := reads.take headerBehind inside
  have recordReads := atRecords.take behind.le inside
  rw [parseCcel_header log.header headerReads,
    scanEvents_records recordReads few]
  change
    ∃ message,
      scanEvents (log.encode.take cut) (log.boundary count) _ >>= _ =
        .error message
  rw [scanEvents, length, if_pos behind, truncated]
  refine ⟨_, if_pos ?_⟩
  rw [length]
  simpa using behind

/--
The parser accepts exactly the complete logs, with the events of the records
that carry a SHA-384 digest; a log cut where a record starts is the log of the
records before the cut, and a log cut inside a record is refused.
-/
theorem parseCcel_accepts_exactly_complete_logs :
    (∀ (data : Bytes) (events : List CcelEvent),
      parseCcel data = .ok events ↔
        ∃ (log : EventLog) (tail : LogTail),
          data = log.encode ++ tail.encode ∧
            events = recordEvents log.records) ∧
      ∀ (log : EventLog) (count : Nat),
        parseCcel (log.encode.take (log.boundary count)) =
            .ok (recordEvents (log.records.take count)) ∧
          ∀ cut, log.boundary count < cut →
            cut < log.boundary (count + 1) →
              ∃ message,
                parseCcel (log.encode.take cut) = .error message := by
  refine ⟨?_, ?_⟩
  · intro data events
    constructor
    · exact exists_log_of_parseCcel
    · rintro ⟨log, tail, rfl, rfl⟩
      exact parseCcel_encode log tail
  · intro log count
    refine ⟨parseCcel_boundary log count, ?_⟩
    intro cut behind before
    exact parseCcel_cut log behind before

end Confos.Tdx.CcelRoundTrip
