import Confos.Library.Patterns

/-!
# The scanners for live mirrors

`confos` and `bin/host-deps` read the progress lines of apt and look for a
fetch from a host of Ubuntu's other than its snapshot server.  The one splits
the line, the other matches it against two regular expressions; what these
match is said here in terms of the parts of a line.
-/

namespace Confos.Apt.LiveMirrors

open Confos.Library.Text
open Confos.Library.Patterns

/-- A line of a transcript: ASCII, without newline and NUL. -/
structure Line where
  chars : List Char
  ascii : ∀ char ∈ chars, char.toNat < 128
  noNewline : '\n' ∉ chars
  noNul : '\x00' ∉ chars

/-! ## The scanner of `host-deps` -/

/-- `[:space:]` -/
def isSpace (char : Char) : Bool :=
  char = ' ' || (9 ≤ char.toNat && char.toNat ≤ 13)

def isSlashOrSpace (char : Char) : Bool :=
  char = '/' || isSpace char

/-- `(Get|Hit|Ign|Err)` -/
def kindPattern : Pattern :=
  .alt (.text "Get".toList)
    (.alt (.text "Hit".toList)
      (.alt (.text "Ign".toList) (.text "Err".toList)))

/-- `https?://` -/
def schemePattern : Pattern :=
  .seq (.text "http".toList)
    (.seq (.opt (.text "s".toList)) (.text "://".toList))

/-- `(:[0-9]+)?` -/
def portPattern : Pattern :=
  .opt (.seq (.text ":".toList) (.plus (.oneOf Char.isDigit)))

/-- What follows the scheme: a host, its port, and `([/[:space:]]|$)`. -/
def hostPattern (host : Pattern) : Pattern :=
  .seq host (.seq portPattern (.alt (.oneOf isSlashOrSpace) .finish))

/-- What `LIVE_RE` and `ALLOW_RE` have in common. -/
def fetchPattern (host : Pattern) : Pattern :=
  .seq .start <|
    .seq (.star (.oneOf isSpace)) <|
      .seq kindPattern <|
        .seq (.text ":".toList) <|
          .seq (.plus (.oneOf Char.isDigit)) <|
            .seq (.plus (.oneOf isSpace)) <|
              .seq schemePattern (hostPattern host)

/-- `([^/[:space:]]*\.)?ubuntu\.com` -/
def liveHostPattern : Pattern :=
  .seq
    (.opt (.seq (.star (.noneOf isSlashOrSpace)) (.text ".".toList)))
    (.text "ubuntu.com".toList)

def liveRe : Pattern :=
  fetchPattern liveHostPattern

def allowRe : Pattern :=
  fetchPattern (.text "snapshot.ubuntu.com".toList)

/-- `grep -iE "$LIVE_RE" | grep -ivE "$ALLOW_RE"` passes the line on. -/
def scanLive (line : List Char) : Bool :=
  search liveRe.ignoreCase line && !search allowRe.ignoreCase line

/-! ## The scanner of `confos` -/

def fetchKinds : List (List Char) :=
  ["Get".toList, "Hit".toList, "Ign".toList, "Err".toList]

def isNumber (text : List Char) : Bool :=
  text ≠ [] && text.all Char.isDigit

def stripScheme (url : List Char) : Option (List Char) :=
  (stripStart "http://".toList url).or (stripStart "https://".toList url)

/-- `split(separator).next()` -/
def firstPiece (separator : Char) (text : List Char) : List Char :=
  text.takeWhile (· ≠ separator)

/-- A host of Ubuntu's that is not the snapshot server. -/
def isLiveHost (host : List Char) : Bool :=
  let host := host.map Char.toLower
  (host = "ubuntu.com".toList || ".ubuntu.com".toList.isSuffixOf host) &&
    host ≠ "snapshot.ubuntu.com".toList

def isLiveMirrorFetch (line : List Char) : Bool :=
  match words line with
  | [] => false
  | tag :: rest =>
      match splitOnce ':' tag with
      | none => false
      | some (kind, seq) =>
          if fetchKinds.contains kind && isNumber seq then
            match rest.head?.bind stripScheme with
            | none => false
            | some rest => isLiveHost (firstPiece ':' (firstPiece '/' rest))
          else
            false

/-- What `run_mkosi` does with a line of mkosi's output. -/
def teeScan (line : List Char) : Bool :=
  isLiveMirrorFetch (line.dropWhile fun char => char = '\r' || char = ' ')

/-! ## What the lines say -/

def schemes : List (List Char) :=
  ["http://".toList, "https://".toList]

/-- A word of a progress line, in any case. -/
def SpelledAs (known : List (List Char)) (text : List Char) : Prop :=
  ∃ word ∈ known, text.map Char.toLower = word.map Char.toLower

/-- A progress line in any case: its kind, its scheme, and what follows. -/
def Progress (line kind scheme after : List Char) : Prop :=
  ∃ lead number gap,
    line = lead ++ (kind ++ ':' :: (number ++ (gap ++ (scheme ++ after)))) ∧
      (∀ char ∈ lead, isSpace char = true) ∧ SpelledAs fetchKinds kind ∧
        isNumber number = true ∧ gap ≠ [] ∧
          (∀ char ∈ gap, isSpace char = true) ∧ SpelledAs schemes scheme

/-- Host and port: what follows a scheme up to a slash or a blank. -/
def authorityOf (after : List Char) : List Char :=
  after.takeWhile fun char => !isSlashOrSpace char

/-- An authority less a final colon with digits. -/
def withoutPort (authority : List Char) : List Char :=
  match authority.reverse.dropWhile Char.isDigit with
  | ':' :: host =>
      if authority.getLast?.any Char.isDigit then host.reverse else authority
  | _ => authority

/-- Nothing, or a colon and digits. -/
def IsPort (port : List Char) : Prop :=
  port = [] ∨ ∃ number, isNumber number = true ∧ port = ':' :: number

theorem isNumber_iff {text : List Char} :
    isNumber text = true ↔
      text ≠ [] ∧ ∀ char ∈ text, char.isDigit = true := by
  simp [isNumber]

theorem withoutPort_append
    (host : List Char) {number : List Char}
    (isPort : isNumber number = true) :
    withoutPort (host ++ ':' :: number) = host := by
  rcases isNumber_iff.1 isPort with ⟨nonempty, digits⟩
  have stripped :
      (host ++ ':' :: number).reverse.dropWhile Char.isDigit =
        ':' :: host.reverse := by
    rw [List.reverse_append, List.reverse_cons, List.append_assoc,
      List.dropWhile_append_of_pos]
    · rfl
    · intro char member
      exact digits char (List.mem_reverse.1 member)
  have last : (host ++ ':' :: number).getLast?.any Char.isDigit = true := by
    rcases List.eq_nil_or_concat number with rfl | ⟨front, digit, rfl⟩
    · exact absurd rfl nonempty
    · have isDigit := digits digit (by simp)
      rw [List.concat_eq_append, ← List.cons_append, ← List.append_assoc,
        List.getLast?_concat]
      exact isDigit
  rw [withoutPort, stripped]
  simp only [last, if_true, List.reverse_reverse]

theorem withoutPort_of_last
    {authority : List Char}
    (noDigit : authority.getLast?.any Char.isDigit = false) :
    withoutPort authority = authority := by
  rw [withoutPort]
  split
  · rw [noDigit]
    rfl
  · rfl

/-- An authority is what is left of it and a port. -/
theorem exists_port (authority : List Char) :
    ∃ port,
      authority = withoutPort authority ++ port ∧ IsPort port := by
  rcases exists_run Char.isDigit authority.reverse with
    ⟨run, tail, split, digits, ended⟩
  have whole : authority = tail.reverse ++ run.reverse := by
    rw [← List.reverse_append, ← split, List.reverse_reverse]
  have rest : authority.reverse.dropWhile Char.isDigit = tail := by
    rw [split, List.dropWhile_append_of_pos digits]
    cases tail with
    | nil => rfl
    | cons char tail =>
        exact List.dropWhile_cons_of_neg (by simp [ended char rfl])
  by_cases noPort : run ≠ [] ∧ tail.head? = some ':'
  · rcases noPort with ⟨nonempty, colon⟩
    cases tail with
    | nil => cases colon
    | cons char host =>
        cases colon
        have isPort : isNumber run.reverse = true := by
          rw [isNumber_iff]
          refine ⟨fun empty => nonempty (List.reverse_eq_nil_iff.1 empty), ?_⟩
          intro char member
          exact digits char (List.mem_reverse.1 member)
        have same : authority = host.reverse ++ ':' :: run.reverse := by
          rw [whole, List.reverse_cons, List.append_assoc]
          rfl
        refine ⟨':' :: run.reverse, ?_, Or.inr ⟨_, isPort, rfl⟩⟩
        rw [same, withoutPort_append _ isPort]
  · refine ⟨[], ?_, Or.inl rfl⟩
    rw [List.append_nil, withoutPort, rest]
    split
    · next host =>
        cases run with
        | nil =>
            have last : authority.getLast?.any Char.isDigit = false := by
              rw [whole, List.reverse_nil, List.append_nil,
                List.getLast?_reverse]
              rfl
            rw [last]
            rfl
        | cons digit run =>
            exact absurd ⟨List.cons_ne_nil _ _, rfl⟩ noPort
    · rfl

/-! ## What the expressions match -/

theorem isSpace_iff {char : Char} :
    isSpace char = true ↔
      char.toNat = 32 ∨ 9 ≤ char.toNat ∧ char.toNat ≤ 13 := by
  rw [isSpace, Bool.or_eq_true, decide_eq_true_iff, ← Char.toNat_inj,
    Bool.and_eq_true, decide_eq_true_iff, decide_eq_true_iff]
  rfl

theorem isSlashOrSpace_iff {char : Char} :
    isSlashOrSpace char = true ↔
      char.toNat = 47 ∨ char.toNat = 32 ∨
        9 ≤ char.toNat ∧ char.toNat ≤ 13 := by
  rw [isSlashOrSpace, Bool.or_eq_true, decide_eq_true_iff, isSpace_iff,
    ← Char.toNat_inj]
  rfl

theorem isSpace_ignoreCase (char : Char) :
    (isSpace char.toLower || isSpace char.toUpper) = isSpace char := by
  rw [Bool.eq_iff_iff, Bool.or_eq_true, isSpace_iff, isSpace_iff,
    isSpace_iff, toNat_toLower, toNat_toUpper]
  grind

theorem isDigit_ignoreCase (char : Char) :
    (char.toLower.isDigit || char.toUpper.isDigit) = char.isDigit := by
  rw [Bool.eq_iff_iff, Bool.or_eq_true, isDigit_iff, isDigit_iff,
    isDigit_iff, toNat_toLower, toNat_toUpper]
  grind

theorem isSlashOrSpace_ignoreCase (char : Char) :
    (isSlashOrSpace char.toLower || isSlashOrSpace char.toUpper) =
      isSlashOrSpace char := by
  rw [Bool.eq_iff_iff, Bool.or_eq_true, isSlashOrSpace_iff,
    isSlashOrSpace_iff, isSlashOrSpace_iff, toNat_toLower, toNat_toUpper]
  grind

theorem isSlashOrSpace_toLower (char : Char) :
    isSlashOrSpace char.toLower = isSlashOrSpace char := by
  rw [Bool.eq_iff_iff, isSlashOrSpace_iff, isSlashOrSpace_iff,
    toNat_toLower]
  grind

theorem isSlashOrSpace_eq_false_of_isDigit
    {char : Char} (isDigit : char.isDigit = true) :
    isSlashOrSpace char = false := by
  rw [isDigit_iff] at isDigit
  rw [Bool.eq_false_iff, ne_eq, isSlashOrSpace_iff]
  omega

/-- A class that does not tell letters by case matches alike with `-i`. -/
theorem takes_ignoreCase
    {named : Char → Bool}
    (same : ∀ char, (named char.toLower || named char.toUpper) = named char) :
    Takes (Pattern.oneOf named).ignoreCase named := by
  have classes : (fun char : Char =>
      named char.toLower || named char.toUpper) = named := funext same
  rw [Pattern.ignoreCase, classes]
  exact takes_oneOf named

theorem takes_noneOf_ignoreCase
    {named : Char → Bool}
    (same : ∀ char, (named char.toLower || named char.toUpper) = named char) :
    Takes (Pattern.noneOf named).ignoreCase fun char => !named char := by
  have classes : (fun char : Char =>
      named char.toLower || named char.toUpper) = named := funext same
  rw [Pattern.ignoreCase, classes]
  exact takes_noneOf named

theorem spans_number :
    Spans (Pattern.plus (.oneOf Char.isDigit)).ignoreCase
      (isNumber · = true) :=
  (spans_plus (takes_ignoreCase isDigit_ignoreCase)).congr
    fun _ => isNumber_iff.symm

theorem spans_kind : Spans kindPattern.ignoreCase (SpelledAs fetchKinds) := by
  refine
    (spans_alt (spans_text _)
      (spans_alt (spans_text _)
        (spans_alt (spans_text _) (spans_text _)))).congr fun found => ?_
  simp only [SpelledAs, fetchKinds, List.exists_mem_cons_iff,
    List.not_mem_nil, false_and, exists_false, or_false]

theorem spans_scheme :
    Spans schemePattern.ignoreCase (SpelledAs schemes) := by
  refine
    (spans_seq (spans_text _)
      (spans_seq (spans_opt (spans_text _)) (spans_text _))).congr
      fun scheme => ?_
  simp only [SpelledAs, schemes, List.exists_mem_cons_iff, List.not_mem_nil,
    false_and, exists_false, or_false]
  constructor
  · rintro ⟨front, _, rfl, isFront, middle, back, rfl, isMiddle, isBack⟩
    rw [List.map_append, List.map_append, isFront, isBack]
    rcases isMiddle with isMiddle | rfl
    · rw [isMiddle]
      exact Or.inr rfl
    · exact Or.inl rfl
  · rintro (isScheme | isScheme)
    · have split :
          "http://".toList.map Char.toLower =
            "http".toList.map Char.toLower ++
              "://".toList.map Char.toLower := rfl
      rcases List.map_eq_append_iff.1 (isScheme.trans split) with
        ⟨front, back, rfl, isFront, isBack⟩
      exact
        ⟨front, back, rfl, isFront, [], back, rfl, Or.inr rfl, isBack⟩
    · have split :
          "https://".toList.map Char.toLower =
            "http".toList.map Char.toLower ++
              ("s".toList.map Char.toLower ++
                "://".toList.map Char.toLower) := rfl
      rcases List.map_eq_append_iff.1 (isScheme.trans split) with
        ⟨front, _, rfl, isFront, rest⟩
      rcases List.map_eq_append_iff.1 rest with
        ⟨middle, back, rfl, isMiddle, isBack⟩
      exact
        ⟨front, _, rfl, isFront, middle, back, rfl, Or.inl isMiddle, isBack⟩

theorem map_toLower_eq_colon_iff {text : List Char} :
    text.map Char.toLower = ":".toList.map Char.toLower ↔ text = [':'] := by
  constructor
  · intro same
    rcases List.map_eq_singleton_iff.1 same with ⟨char, rfl, colon⟩
    rw [← Char.toNat_inj, toNat_toLower] at colon
    change _ = 58 at colon
    have sameCode : char.toNat = ':'.toNat := by
      change char.toNat = 58
      grind
    rw [Char.toNat_inj.1 sameCode]
  · rintro rfl
    rfl

theorem spans_port : Spans portPattern.ignoreCase IsPort := by
  refine
    (spans_opt (spans_seq (spans_text _) spans_number)).congr fun port => ?_
  rw [IsPort, or_comm]
  simp only [map_toLower_eq_colon_iff]
  constructor
  · rintro (empty | ⟨_, number, rfl, rfl, isNumber⟩)
    · exact Or.inl empty
    · exact Or.inr ⟨number, isNumber, rfl⟩
  · rintro (empty | ⟨number, isNumber, rfl⟩)
    · exact Or.inl empty
    · exact Or.inr ⟨[':'], number, rfl, rfl, isNumber⟩

theorem begins_fetch
    {host : Pattern} {accepts : List Char → Prop}
    (begins : Begins (hostPattern host).ignoreCase accepts)
    {line : List Char} :
    search (fetchPattern host).ignoreCase line = true ↔
      ∃ kind scheme after,
        Progress line kind scheme after ∧ accepts after := by
  have spaces := takes_ignoreCase isSpace_ignoreCase
  refine
    (search_start_iff
      (begins_seq (spans_star spaces)
        (begins_seq spans_kind
          (begins_seq (spans_text _)
            (begins_seq spans_number
              (begins_seq (spans_plus spaces)
                (begins_seq spans_scheme begins))))))).trans ?_
  constructor
  · rintro ⟨lead, _, rfl, blanks, kind, _, rfl, isKind, colon, _, rfl,
      isColon, number, _, rfl, isNumber, gap, _, rfl, isGap, scheme, after,
      rfl, isScheme, accepted⟩
    cases map_toLower_eq_colon_iff.1 isColon
    exact
      ⟨kind, scheme, after,
        ⟨lead, number, gap, rfl, blanks, isKind, isNumber, isGap.1, isGap.2,
          isScheme⟩,
        accepted⟩
  · rintro ⟨kind, scheme, after,
      ⟨lead, number, gap, rfl, blanks, isKind, isNumber, nonempty, isGap,
        isScheme⟩, accepted⟩
    exact
      ⟨lead, _, rfl, blanks, kind, _, rfl, isKind, [':'], _, rfl, rfl,
        number, _, rfl, isNumber, gap, _, rfl, ⟨nonempty, isGap⟩, scheme,
        after, rfl, isScheme, accepted⟩

/-! ## The hosts -/

/-- A host under `ubuntu.com`, in any case. -/
def IsUbuntuHost (host : List Char) : Prop :=
  host.map Char.toLower = "ubuntu.com".toList ∨
    ".ubuntu.com".toList <:+ host.map Char.toLower

def IsSnapshotHost (host : List Char) : Prop :=
  host.map Char.toLower = "snapshot.ubuntu.com".toList

instance (host : List Char) : Decidable (IsUbuntuHost host) :=
  inferInstanceAs (Decidable (_ ∨ _))

instance (host : List Char) : Decidable (IsSnapshotHost host) :=
  inferInstanceAs (Decidable (_ = _))

theorem isLiveHost_iff {host : List Char} :
    isLiveHost host = true ↔ IsUbuntuHost host ∧ ¬ IsSnapshotHost host := by
  rw [isLiveHost, Bool.and_eq_true, Bool.or_eq_true, decide_eq_true_iff,
    decide_eq_true_iff, List.isSuffixOf_iff_suffix]
  rfl

/-- The texts that a host pattern takes: hosts of a kind, in one piece. -/
structure Hosts (accepts : List Char → Prop) (isHost : List Char → Prop) :
    Prop where
  iff : ∀ found,
    accepts found ↔
      isHost found ∧ ∀ char ∈ found, isSlashOrSpace char = false
  noDigit : ∀ found, isHost found → found.getLast?.any Char.isDigit = false

theorem IsPort.solid
    {port : List Char} (isPort : IsPort port) {char : Char}
    (member : char ∈ port) : isSlashOrSpace char = false := by
  rcases isPort with rfl | ⟨number, isNumber, rfl⟩
  · cases member
  · rcases List.mem_cons.1 member with rfl | digit
    · decide
    · exact
        isSlashOrSpace_eq_false_of_isDigit
          ((isNumber_iff.1 isNumber).2 char digit)

theorem authorityOf_append
    {authority tail : List Char}
    (solid : ∀ char ∈ authority, isSlashOrSpace char = false)
    (ended : ∀ char ∈ tail.head?, isSlashOrSpace char = true) :
    authorityOf (authority ++ tail) = authority := by
  rw [authorityOf, List.takeWhile_append_of_pos]
  · cases tail with
    | nil => simp
    | cons char tail => simp [ended char rfl]
  · intro char member
    rw [solid char member]
    rfl

theorem exists_authority (after : List Char) :
    ∃ tail,
      after = authorityOf after ++ tail ∧
        (∀ char ∈ authorityOf after, isSlashOrSpace char = false) ∧
          ∀ char ∈ tail.head?, isSlashOrSpace char = true := by
  rcases exists_run (fun char => !isSlashOrSpace char) after with
    ⟨authority, tail, rfl, solid, ended⟩
  simp only [Bool.not_eq_true', Bool.not_eq_false'] at solid ended
  rw [authorityOf_append solid ended]
  exact ⟨tail, rfl, solid, ended⟩

/-- A host, its port and a blank or slash follow exactly if the authority,
less its port, is such a host. -/
theorem begins_host
    {host : Pattern} {accepts isHost : List Char → Prop}
    (spans : Spans host.ignoreCase accepts) (hosts : Hosts accepts isHost) :
    Begins (hostPattern host).ignoreCase fun after =>
      isHost (withoutPort (authorityOf after)) := by
  intro atStart after
  refine
    (begins_seq spans
      (begins_seq spans_port
        (begins_class_or_finish
          (takes_ignoreCase isSlashOrSpace_ignoreCase))) atStart after).trans
      ?_
  constructor
  · rintro ⟨found, _, rfl, accepted, port, tail, rfl, isPort, ended⟩
    rcases (hosts.iff found).1 accepted with ⟨isHost, solid⟩
    rw [← List.append_assoc, authorityOf_append ?_ ended]
    · rcases isPort with rfl | ⟨number, isNumber, rfl⟩
      · rw [List.append_nil, withoutPort_of_last (hosts.noDigit _ isHost)]
        exact isHost
      · rw [withoutPort_append _ isNumber]
        exact isHost
    · intro char member
      rcases List.mem_append.1 member with inside | inside
      · exact solid char inside
      · exact isPort.solid inside
  · intro isHost
    rcases exists_authority after with ⟨tail, split, solid, ended⟩
    rcases exists_port (authorityOf after) with ⟨port, whole, isPort⟩
    refine
      ⟨withoutPort (authorityOf after), port ++ tail, ?_,
        (hosts.iff _).2 ⟨isHost, ?_⟩, port, tail, rfl, isPort, ended⟩
    · rw [← List.append_assoc, ← whole]
      exact split
    · intro char member
      apply solid
      rw [whole]
      exact List.mem_append_left _ member

theorem solid_of_map_toLower
    {found lower : List Char} (same : found.map Char.toLower = lower)
    (solid : (lower.all fun char => !isSlashOrSpace char) = true) :
    ∀ char ∈ found, isSlashOrSpace char = false := by
  intro char member
  rw [← isSlashOrSpace_toLower, ← Bool.not_eq_true']
  apply List.all_eq_true.1 solid
  rw [← same]
  exact List.mem_map_of_mem member

theorem noDigit_of_suffix
    {found : List Char} (ends : ".com".toList <:+ found.map Char.toLower) :
    found.getLast?.any Char.isDigit = false := by
  rcases List.eq_nil_or_concat found with rfl | ⟨front, last, rfl⟩
  · rfl
  · rcases ends with ⟨start, split⟩
    have lasts := congrArg List.getLast? split
    rw [List.getLast?_append_of_ne_nil _ (by decide), List.concat_eq_append,
      List.map_append, List.map_singleton, List.getLast?_concat] at lasts
    have code := congrArg Char.toNat (Option.some.inj lasts)
    rw [toNat_toLower] at code
    change 109 = _ at code
    rw [List.concat_eq_append, List.getLast?_concat, Option.any_some,
      Bool.eq_false_iff, ne_eq, isDigit_iff]
    grind

theorem hosts_snapshot :
    Hosts
      (fun found =>
        found.map Char.toLower =
          "snapshot.ubuntu.com".toList.map Char.toLower)
      IsSnapshotHost where
  iff := by
    intro found
    constructor
    · intro same
      exact ⟨same, solid_of_map_toLower same (by decide)⟩
    · intro snapshot
      exact snapshot.1
  noDigit := by
    intro found snapshot
    apply noDigit_of_suffix
    rw [snapshot]
    decide

theorem spans_liveHost :
    ∃ accepts, Spans liveHostPattern.ignoreCase accepts ∧
      Hosts accepts IsUbuntuHost := by
  refine
    ⟨_,
      spans_seq
        (spans_opt
          (spans_seq
            (spans_star (takes_noneOf_ignoreCase isSlashOrSpace_ignoreCase))
            (spans_text _)))
        (spans_text _), ?_, ?_⟩
  · intro found
    constructor
    · rintro ⟨_, back, rfl, ⟨label, dot, rfl, isLabel, isDot⟩ | rfl, same⟩
      · constructor
        · refine Or.inr ⟨label.map Char.toLower, ?_⟩
          rw [List.map_append, List.map_append, isDot, same,
            List.append_assoc]
          rfl
        · intro char member
          rcases List.mem_append.1 member with inside | inside
          · rcases List.mem_append.1 inside with inLabel | inDot
            · rw [← Bool.not_eq_true']
              exact isLabel char inLabel
            · exact solid_of_map_toLower isDot (by decide) char inDot
          · exact solid_of_map_toLower same (by decide) char inside
      · exact ⟨Or.inl same, solid_of_map_toLower same (by decide)⟩
    · rintro ⟨same | ⟨start, split⟩, solid⟩
      · exact ⟨[], found, rfl, Or.inr rfl, same⟩
      · rcases List.map_eq_append_iff.1 split.symm with
          ⟨label, rest, rfl, -, isRest⟩
        have pieces :
            ".ubuntu.com".toList =
              ".".toList.map Char.toLower ++
                "ubuntu.com".toList.map Char.toLower := by decide
        rcases List.map_eq_append_iff.1 (isRest.trans pieces) with
          ⟨dot, back, rfl, isDot, isBack⟩
        refine
          ⟨label ++ dot, back, (List.append_assoc _ _ _).symm,
            Or.inl ⟨label, dot, rfl, fun char member => ?_, isDot⟩, isBack⟩
        rw [Bool.not_eq_true']
        exact solid char (List.mem_append_left _ member)
  · rintro found (same | suffix)
    · apply noDigit_of_suffix
      rw [same]
      decide
    · apply noDigit_of_suffix
      exact List.IsSuffix.trans (by decide) suffix

end Confos.Apt.LiveMirrors
