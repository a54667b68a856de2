import Confos.Apt.LiveMirrorLines
import Confos.Library.PythonText
import Confos.Library.Terminated

/-!
# The guard against live mirrors

`run_mkosi` passes the output of mkosi on and scans it, line by line, for
fetches from a live mirror.  The host it looks at is not always the one that
the URL names.
-/

namespace Confos.Apt.MirrorGuard

open Confos.Library.ByteStrings
open Confos.Library.PythonText (decodeReplace)
open Confos.Library.Terminated
open Confos.Library.Text
open Confos.Apt.LiveMirrors

/-! ## The scan of a stream -/

/-- What a pipe delivers, and whether an error ends it. -/
structure Stream where
  bytes : Bytes
  failed : Bool

/-- `read_until`: an error loses the line it cuts off. -/
def readLine (stream : Stream) : Except Unit (Bytes × Stream) :=
  let read := readUntil 10 stream.bytes
  if stream.failed ∧ read.1.getLast? ≠ some 10 then
    .error ()
  else
    .ok (read.1, { stream with bytes := read.2 })

/-- `from_utf8_lossy`: like Python it puts one replacement for the longest
start of a character. -/
def fromUtf8Lossy (bytes : Bytes) : List Char :=
  decodeReplace bytes

def trimEnd (text : List Char) : List Char :=
  (text.reverse.dropWhile isWhiteSpace).reverse

/-- What is passed on to the terminal, and the offending lines. -/
structure Tee where
  written : Bytes
  hits : List (List Char)
deriving DecidableEq, Repr

def scanLine (tee : Tee) (line : Bytes) : Tee :=
  let text := fromUtf8Lossy line
  { written := tee.written ++ line
    hits :=
      if LiveMirrors.teeScan text then
        tee.hits ++ [trimEnd text]
      else
        tee.hits }

/-- The loop, in so many turns. -/
def scanTurns : Nat → Stream → Tee → Tee
  | 0, _, tee => tee
  | turns + 1, stream, tee =>
      match readLine stream with
      | .error _ => tee
      | .ok (line, rest) =>
          if line.length = 0 then
            tee
          else
            scanTurns turns rest (scanLine tee line)

def teeScan (stream : Stream) : Tee :=
  scanTurns (stream.bytes.length + 1) stream { written := [], hits := [] }

/-! ## Its lines -/

/-- The lines that are read: an error loses the last one if it is cut off. -/
def linesOf (stream : Stream) : List Bytes :=
  (splitAfter 10 stream.bytes).filter fun line =>
    !stream.failed || line.getLast? = some 10

/-- What one line adds. -/
def report (line : Bytes) : List (List Char) :=
  let text := fromUtf8Lossy line
  if LiveMirrors.teeScan text then [trimEnd text] else []

theorem scanLine_eq (tee : Tee) (line : Bytes) :
    scanLine tee line =
      { written := tee.written ++ line, hits := tee.hits ++ report line } := by
  rw [scanLine, report]
  split
  · rfl
  · rw [List.append_nil]

theorem readLine_eq_error
    {stream : Stream} (failed : readLine stream = .error ()) :
    linesOf stream = [] := by
  rw [readLine] at failed
  split at failed
  · next cut =>
      rcases cut with ⟨isFailed, unended⟩
      rw [linesOf]
      cases bytes : stream.bytes with
      | nil => rfl
      | cons byte bytes' =>
          rw [bytes] at unended
          rw [splitAfter_eq_cons (List.cons_ne_nil _ _),
            readUntil_snd_eq_nil unended]
          simp [splitAfter, isFailed, unended]
  · cases failed

theorem readLine_eq_ok
    {stream rest : Stream} {line : Bytes}
    (read : readLine stream = .ok (line, rest)) (nonempty : line ≠ []) :
    linesOf stream = line :: linesOf rest ∧
      rest.bytes.length < stream.bytes.length := by
  rw [readLine] at read
  split at read
  · cases read
  · next whole =>
      cases read
      have someBytes : stream.bytes ≠ [] := by
        intro empty
        rw [empty] at nonempty
        exact nonempty rfl
      refine ⟨?_, length_readUntil_snd someBytes⟩
      rw [linesOf, splitAfter_eq_cons someBytes, List.filter_cons_of_pos]
      · rfl
      · rw [not_and_or, not_not] at whole
        rcases whole with unfailed | ended
        · simp [unfailed]
        · simp [ended]

theorem readLine_eq_ok_nil
    {stream rest : Stream} (read : readLine stream = .ok ([], rest)) :
    linesOf stream = [] := by
  rw [readLine] at read
  split at read
  · cases read
  · rcases Prod.mk.inj (Except.ok.inj read) with ⟨empty, -⟩
    have noBytes : stream.bytes = [] := by
      by_contra someBytes
      exact readUntil_fst_ne_nil someBytes empty
    rw [linesOf, noBytes]
    rfl

/-- The loop takes every line that can be read. -/
theorem scanTurns_eq
    {turns : Nat} {stream : Stream} (enough : stream.bytes.length < turns)
    (tee : Tee) :
    scanTurns turns stream tee =
      { written := tee.written ++ (linesOf stream).flatten
        hits := tee.hits ++ (linesOf stream).flatMap report } := by
  induction turns generalizing stream tee with
  | zero => exact absurd enough (Nat.not_lt_zero _)
  | succ turns induction =>
      rw [scanTurns]
      split
      · next read =>
          rw [readLine_eq_error read]
          simp
      · next line rest read =>
          split
          · next empty =>
              rw [List.length_eq_zero_iff] at empty
              rw [empty] at read
              rw [readLine_eq_ok_nil read]
              simp
          · next nonempty =>
              rw [List.length_eq_zero_iff] at nonempty
              rcases readLine_eq_ok read nonempty with ⟨lines, shorter⟩
              rw [induction (by omega), scanLine_eq, lines,
                List.flatten_cons, List.flatMap_cons, List.append_assoc,
                List.append_assoc]

theorem teeScan_eq (stream : Stream) :
    teeScan stream =
      { written := (linesOf stream).flatten
        hits := (linesOf stream).flatMap report } := by
  rw [teeScan, scanTurns_eq (Nat.lt_succ_self _), List.nil_append,
    List.nil_append]

/-- Nothing that a pipe delivers is kept from the terminal. -/
theorem written_teeScan
    {stream : Stream} (unfailed : stream.failed = false) :
    (teeScan stream).written = stream.bytes := by
  have all :
      linesOf stream = splitAfter 10 stream.bytes := by
    rw [linesOf, unfailed]
    simp
  rw [teeScan_eq, all]
  exact flatten_splitAfter stream.bytes

/-- A line that is read, and what is in front of it and behind it. -/
structure LineOf (stream : Stream) (front line back : Bytes) : Prop where
  whole : stream.bytes = front ++ (line ++ back)
  starts : Closed 10 front
  nonempty : line ≠ []
  single : 10 ∉ line.dropLast
  ended : line.getLast? = some 10 ∨ back = [] ∧ stream.failed = false

theorem linesOf_append
    {front : Bytes} (closed : Closed 10 front) (back : Bytes) (failed : Bool) :
    linesOf { bytes := front ++ back, failed } =
      linesOf { bytes := front, failed := false } ++
        linesOf { bytes := back, failed } := by
  have ended :
      ∀ piece ∈ splitAfter 10 front,
        (!failed || decide (piece.getLast? = some 10)) = true := by
    intro piece isPiece
    rw [getLast?_of_mem_splitAfter closed isPiece]
    simp
  rw [linesOf, linesOf, linesOf]
  dsimp only
  rw [splitAfter_append closed, List.filter_append,
    List.filter_eq_self.2 ended]
  simp

theorem LineOf.linesOf_eq
    {stream : Stream} {front line back : Bytes}
    (isLine : LineOf stream front line back) :
    linesOf stream =
      linesOf { bytes := front, failed := false } ++
        line :: linesOf { bytes := back, failed := stream.failed } := by
  have single := splitAfter_eq_singleton isLine.nonempty isLine.single
  have ended := isLine.ended
  rcases stream with ⟨bytes, failed⟩
  have whole : bytes = front ++ (line ++ back) := isLine.whole
  rw [whole, linesOf_append isLine.starts]
  rcases ended with ended | ⟨rfl, unfailed⟩
  · have closed : Closed 10 line := by
      intro last isLast
      rw [ended] at isLast
      exact (Option.some.inj isLast).symm
    rw [linesOf_append closed]
    simp [linesOf, single]
  · cases unfailed
    simp [linesOf, single, splitAfter]

/-- Every line is judged by itself. -/
theorem LineOf.hits_eq
    {stream : Stream} {front line back : Bytes}
    (isLine : LineOf stream front line back) :
    (teeScan stream).hits =
      (teeScan { bytes := front, failed := false }).hits ++
        (report line ++
          (teeScan { bytes := back, failed := stream.failed }).hits) := by
  rw [teeScan_eq, teeScan_eq, teeScan_eq, isLine.linesOf_eq]
  dsimp only
  rw [List.flatMap_append, List.flatMap_cons]

/-! ## The host of a line -/

/-- A progress line of apt: its scheme in any case, and what follows it. -/
def AptLine (text scheme after : List Char) : Prop :=
  ∃ lead kind number gap,
    text = lead ++ (kind ++ ':' :: (number ++ (gap ++ (scheme ++ after)))) ∧
      (∀ char ∈ lead, char = '\r' ∨ char = ' ') ∧ kind ∈ fetchKinds ∧
        isNumber number = true ∧ gap ≠ [] ∧
          (∀ char ∈ gap, isWhiteSpace char = true) ∧ SpelledAs schemes scheme

/-- The authority of a URL, read off what follows its scheme. -/
def authorityIn (after : List Char) : List Char :=
  firstPiece '/' (after.takeWhile fun char => !isWhiteSpace char)

def withoutUserInfo (authority : List Char) : List Char :=
  match splitLast '@' authority with
  | some (_, hostPort) => hostPort
  | none => authority

def withoutDot (host : List Char) : List Char :=
  if host.getLast? = some '.' then host.dropLast else host

/-- What stands before a port, in lower case. -/
def hostField (hostPort : List Char) : List Char :=
  (firstPiece ':' hostPort).map Char.toLower

/-- The host that a URL names. -/
def hostOf (authority : List Char) : List Char :=
  withoutDot (hostField (withoutUserInfo authority))

/-- A host of Ubuntu's other than its snapshot server. -/
def IsLiveName (host : List Char) : Prop :=
  (host = "ubuntu.com".toList ∨ ".ubuntu.com".toList <:+ host) ∧
    host ≠ "snapshot.ubuntu.com".toList

instance (host : List Char) : Decidable (IsLiveName host) :=
  inferInstanceAs (Decidable (_ ∧ _))

/-- A live host with a dot behind it. -/
def IsDottedName (host : List Char) : Prop :=
  host.getLast? = some '.' ∧ IsLiveName host.dropLast

instance (host : List Char) : Decidable (IsDottedName host) :=
  inferInstanceAs (Decidable (_ ∧ _))

theorem not_isLiveName_of_dot
    {host : List Char} (dot : host.getLast? = some '.') :
    ¬ IsLiveName host ∧ host ≠ "ubuntu.com".toList ∧
      host ≠ "snapshot.ubuntu.com".toList ∧
        ¬ ".ubuntu.com".toList <:+ host := by
  have noSuffix : ¬ ".ubuntu.com".toList <:+ host := by
    rintro ⟨start, rfl⟩
    rw [List.getLast?_append_of_ne_nil _ (by decide)] at dot
    revert dot
    decide
  have notUbuntu : host ≠ "ubuntu.com".toList := by
    rintro rfl
    revert dot
    decide
  have notSnapshot : host ≠ "snapshot.ubuntu.com".toList := by
    rintro rfl
    revert dot
    decide
  refine ⟨?_, notUbuntu, notSnapshot, noSuffix⟩
  rintro ⟨isUbuntu | suffix, -⟩
  · exact notUbuntu isUbuntu
  · exact noSuffix suffix

/-- A dot at the end counts for nothing unless a live host is before it. -/
theorem isLiveName_withoutDot_iff {host : List Char} :
    (IsLiveName host ↔ IsLiveName (withoutDot host)) ↔
      ¬ IsDottedName host := by
  rw [withoutDot, IsDottedName]
  by_cases dot : host.getLast? = some '.'
  · rw [if_pos dot, and_iff_right dot]
    exact ⟨fun same live => (not_isLiveName_of_dot dot).1 (same.2 live),
      fun dead =>
        iff_of_false (not_isLiveName_of_dot dot).1 dead⟩
  · rw [if_neg dot]
    exact iff_of_true Iff.rfl fun dotted => dot dotted.1

/-- Behind an `@` the ending alone makes a host live. -/
theorem isLiveName_append_at {front back : List Char} :
    IsLiveName (front ++ '@' :: back) ↔ ".ubuntu.com".toList <:+ back := by
  have at_mem : '@' ∈ front ++ '@' :: back :=
    List.mem_append_right _ List.mem_cons_self
  rw [IsLiveName, suffix_append_cons_iff (by decide)]
  constructor
  · rintro ⟨same | suffix, -⟩
    · rw [same] at at_mem
      exact absurd at_mem (by decide)
    · exact suffix
  · intro suffix
    refine ⟨Or.inr suffix, fun same => ?_⟩
    rw [same] at at_mem
    exact absurd at_mem (by decide)

/-- With a user in front two names are misread, and those with a dot. -/
theorem isLiveName_behind_user_iff {front host : List Char} :
    (IsLiveName (front ++ '@' :: host) ↔ IsLiveName (withoutDot host)) ↔
      host ≠ "ubuntu.com".toList ∧ host ≠ "snapshot.ubuntu.com".toList ∧
        ¬ IsDottedName host := by
  rw [isLiveName_append_at]
  by_cases dot : host.getLast? = some '.'
  · rcases not_isLiveName_of_dot dot with
      ⟨-, notUbuntu, notSnapshot, noSuffix⟩
    rw [withoutDot, if_pos dot, IsDottedName, and_iff_right dot,
      and_iff_right notUbuntu, and_iff_right notSnapshot]
    exact ⟨fun same live => noSuffix (same.2 live),
      fun dead => iff_of_false noSuffix dead⟩
  · have noDot : ¬ IsDottedName host := fun dotted => dot dotted.1
    rw [withoutDot, if_neg dot, IsLiveName, and_iff_left noDot]
    constructor
    · intro same
      constructor
      · rintro rfl
        revert same
        decide
      · rintro rfl
        revert same
        decide
    · rintro ⟨notUbuntu, notSnapshot⟩
      rw [or_iff_right notUbuntu, and_iff_left notSnapshot]

/-- Where the scan and the URL name hosts that are both live or both not. -/
def ReadAlike (scheme authority : List Char) : Prop :=
  (scheme ∈ schemes →
      match splitLast '@' authority with
      | none => ¬ IsDottedName (hostField authority)
      | some (userInfo, hostPort) =>
          (':' ∈ userInfo →
              (IsLiveName (hostField userInfo) ↔
                IsLiveName (withoutDot (hostField hostPort)))) ∧
            (':' ∉ userInfo →
              hostField hostPort ≠ "ubuntu.com".toList ∧
                hostField hostPort ≠ "snapshot.ubuntu.com".toList ∧
                  ¬ IsDottedName (hostField hostPort))) ∧
    (scheme ∉ schemes → ¬ IsLiveName (hostOf authority))

/-- The scan takes what stands before the first colon for the host. -/
theorem readAlike_iff {scheme authority : List Char} :
    (scheme ∈ schemes ∧ IsLiveName (hostField authority) ↔
        IsLiveName (hostOf authority)) ↔
      ReadAlike scheme authority := by
  rw [ReadAlike]
  by_cases isScheme : scheme ∈ schemes
  · simp only [isScheme, not_true, false_implies, and_true, true_and,
      true_implies]
    rw [hostOf, withoutUserInfo]
    cases found : splitLast '@' authority with
    | none => exact isLiveName_withoutDot_iff
    | some parts =>
        rcases parts with ⟨userInfo, hostPort⟩
        rw [eq_of_splitLast found]
        dsimp only
        by_cases colon : ':' ∈ userInfo
        · simp only [colon, not_true, false_implies, and_true, true_implies]
          rw [hostField, firstPiece_append_of_mem colon, ← hostField]
        · simp only [colon, not_false_eq_true, false_implies, true_and,
            true_implies]
          have whole :
              hostField (userInfo ++ '@' :: hostPort) =
                userInfo.map Char.toLower ++ '@' :: hostField hostPort := by
            rw [hostField, firstPiece_append_of_not_mem colon, firstPiece,
              List.takeWhile_cons_of_pos (by decide), List.map_append,
              List.map_cons]
            rfl
          rw [whole]
          exact isLiveName_behind_user_iff
  · simp only [isScheme, not_false_eq_true, false_implies, false_and,
      true_and, true_implies]
    constructor
    · intro same live
      exact same.2 live
    · intro dead
      exact iff_of_false id dead

/-! ## What is reported -/

theorem isLiveHost_iff_isLiveName {host : List Char} :
    isLiveHost host = true ↔ IsLiveName (host.map Char.toLower) :=
  isLiveHost_iff

theorem isWhiteSpace_toLower (char : Char) :
    isWhiteSpace char.toLower = isWhiteSpace char := by
  rw [Bool.eq_iff_iff, isWhiteSpace, isWhiteSpace, toNat_toLower]
  simp
  grind

theorem AptLine.readFetch_eq
    {text scheme after : List Char} (isLine : AptLine text scheme after) :
    ∃ kind ∈ fetchKinds,
      readFetch text =
        some { kind, scheme, authority := authorityIn after } := by
  rcases isLine with
    ⟨lead, kind, number, gap, whole, blanks, isKind, isPort, someGap, isGap,
      isScheme⟩
  rcases exists_run (fun char => !isWhiteSpace char) after with
    ⟨rest, last, rfl, solid, closed⟩
  have url :
      ((rest ++ last).takeWhile fun char => !isWhiteSpace char) = rest := by
    rw [List.takeWhile_append_of_pos solid]
    cases last with
    | nil => simp
    | cons char last => simp [closed char rfl]
  simp only [Bool.not_eq_true', Bool.not_eq_false'] at solid closed
  have spelled := SpelledAs.of_mem isKind
  have kindSolid : ∀ char ∈ kind, isWhiteSpace char = false :=
    spelled.solid isWhiteSpace_toLower (by decide)
  have schemeSolid : ∀ char ∈ scheme, isWhiteSpace char = false :=
    isScheme.solid isWhiteSpace_toLower (by decide)
  have leadWhite : ∀ char ∈ lead, isWhiteSpace char = true := by
    intro char member
    rcases blanks char member with rfl | rfl
    · decide
    · decide
  have tagSolid :=
    tag_solid kindSolid (by decide) (fun _ => isWhiteSpace_of_isDigit) isPort
  have found :
      words text =
        (kind ++ ':' :: number) :: (scheme ++ rest) :: words last := by
    have twoWords :=
      wordsBy_progress leadWhite (by simp) tagSolid someGap isGap
        (List.append_ne_nil_of_left_ne_nil (isScheme.ne_nil (by decide)) rest)
        (List.forall_mem_append.2 ⟨schemeSolid, solid⟩) closed
    rw [words_eq_wordsBy, words_eq_wordsBy, whole, ← twoWords]
    simp only [List.append_assoc, List.cons_append]
  refine ⟨kind, isKind, ?_⟩
  rw [readFetch_of_words found spelled isPort isScheme, authorityIn, url]

/-- What the scan makes of a progress line. -/
theorem AptLine.teeScan_iff
    {text scheme after : List Char} (isLine : AptLine text scheme after) :
    LiveMirrors.teeScan text = true ↔
      scheme ∈ schemes ∧ IsLiveName (hostField (authorityIn after)) := by
  rcases isLine.readFetch_eq with ⟨kind, isKind, read⟩
  rw [LiveMirrors.teeScan_iff, read]
  simp only [Option.some.injEq, exists_eq_left', Fetch.Exact, isKind,
    true_and, isLiveHost_iff_isLiveName, hostField]

/-- What is due for a line whose URL names the host. -/
def due (host text : List Char) : List (List Char) :=
  if IsLiveName host then [trimEnd text] else []

/-- A progress line is reported exactly if its host is live, wherever it is in
a stream, if and only if the scan and its URL name the host alike. -/
theorem hits_exact_iff
    {stream : Stream} {front line back : Bytes}
    (isLine : LineOf stream front line back) {scheme after : List Char}
    (progress : AptLine (fromUtf8Lossy line) scheme after) :
    (teeScan stream).hits =
        (teeScan { bytes := front, failed := false }).hits ++
          (due (hostOf (authorityIn after)) (fromUtf8Lossy line) ++
            (teeScan { bytes := back, failed := stream.failed }).hits) ↔
      ReadAlike scheme (authorityIn after) := by
  rw [isLine.hits_eq, List.append_cancel_left_eq,
    List.append_cancel_right_eq, ← readAlike_iff, ← progress.teeScan_iff,
    report, due]
  by_cases reported : LiveMirrors.teeScan (fromUtf8Lossy line) = true
  · by_cases live : IsLiveName (hostOf (authorityIn after))
    · simp [reported, live]
    · simp [reported, live]
  · by_cases live : IsLiveName (hostOf (authorityIn after))
    · simp [reported, live]
    · simp [reported, live]

/-! ## Lines that are read rightly and wrongly -/

/-- A line between two lines that are not UTF-8. -/
def streamAround (line : String) : Stream where
  bytes := [0xFF, 10] ++ (utf8Bytes line ++ [0x20, 0xC3, 10])
  failed := false

theorem lineOf_streamAround
    {line : String} (nonempty : utf8Bytes line ≠ [])
    (single : 10 ∉ (utf8Bytes line).dropLast)
    (ended : (utf8Bytes line).getLast? = some 10) :
    LineOf (streamAround line) [0xFF, 10] (utf8Bytes line)
      [0x20, 0xC3, 10] where
  whole := rfl
  starts := by
    intro last isLast
    exact (Option.some.inj isLast).symm
  nonempty := nonempty
  single := single
  ended := Or.inl ended

theorem aptLine_get
    {number scheme : String} (isPort : isNumber number.toList = true)
    (isScheme : SpelledAs schemes scheme.toList) (after : List Char) :
    AptLine
      ("Get:".toList ++ number.toList ++ " ".toList ++ scheme.toList ++ after)
      scheme.toList after :=
  ⟨[], "Get".toList, number.toList, " ".toList, by simp, by simp,
    List.mem_cons_self, isPort, by decide,
    List.forall_mem_singleton.2 (by decide), isScheme⟩

/-- A fetch line whose URL goes on as given. -/
def fetchLine (after : String) : String :=
  "Get:6 http://" ++ after

def portAfter : String :=
  "Archive.Ubuntu.com:80/ubuntu resolute\n"

def passwordAfter : String :=
  "user:word@archive.ubuntu.com/ubuntu resolute\n"

/-- A live host with a port is reported from among lines that are no text. -/
theorem hits_exact_iff_port :
    (teeScan (streamAround (fetchLine portAfter))).hits =
        (teeScan { bytes := [0xFF, 10], failed := false }).hits ++
          (due (hostOf (authorityIn portAfter.toList))
              (fromUtf8Lossy (utf8Bytes (fetchLine portAfter))) ++
            (teeScan { bytes := [0x20, 0xC3, 10], failed := false }).hits) := by
  have text :
      fromUtf8Lossy (utf8Bytes (fetchLine portAfter)) =
        "Get:".toList ++ "6".toList ++ " ".toList ++ "http://".toList ++
          portAfter.toList := by decide +kernel
  have isLine :=
    @lineOf_streamAround (fetchLine portAfter) (by decide +kernel)
      (by decide +kernel) (by decide +kernel)
  have progress :
      AptLine (fromUtf8Lossy (utf8Bytes (fetchLine portAfter)))
        "http://".toList portAfter.toList := by
    rw [text]
    exact aptLine_get (by decide) (SpelledAs.of_mem (by decide)) _
  apply (hits_exact_iff isLine progress).2
  refine ⟨fun _ => ?_, fun otherCase => absurd (by decide) otherCase⟩
  change ¬ IsDottedName (hostField (authorityIn portAfter.toList))
  decide

/-- A live host behind a user with a password is not reported. -/
theorem not_reported_password :
    LineOf (streamAround (fetchLine passwordAfter)) [0xFF, 10]
        (utf8Bytes (fetchLine passwordAfter)) [0x20, 0xC3, 10] ∧
      AptLine (fromUtf8Lossy (utf8Bytes (fetchLine passwordAfter)))
          "http://".toList passwordAfter.toList ∧
        IsLiveName (hostOf (authorityIn passwordAfter.toList)) ∧
          (teeScan (streamAround (fetchLine passwordAfter))).hits = [] := by
  have text :
      fromUtf8Lossy (utf8Bytes (fetchLine passwordAfter)) =
        "Get:".toList ++ "6".toList ++ " ".toList ++ "http://".toList ++
          passwordAfter.toList := by decide +kernel
  refine
    ⟨lineOf_streamAround (by decide +kernel) (by decide +kernel)
        (by decide +kernel), ?_, by decide, by decide +kernel⟩
  rw [text]
  exact aptLine_get (by decide) (SpelledAs.of_mem (by decide)) _

end Confos.Apt.MirrorGuard
