import NamedExpr.Proofs.Boundaries
import NamedExpr.Proofs.Scanning
/-!
# Where tokens stand

The tokens of a text are a partition of it: they are pieces of the text, one after the other, and between them is
white space. Scanning is described word by word, without the count of characters that are passed over (`Scan.Cuts`),
and what is said about the places and the lines of tokens goes by induction on that. Lines are counted by the ends of
lines outside of texts in quotes (`Scan.lineEnds`), over all texts that were scanned before, also over those in which
scanning failed.
-/

namespace NamedExpr

namespace Failure

/-- The place of the word that cannot be read. -/
def position? : Failure → Option Nat
  | .illegalCharacter _ position | .unknownEscape _ position | .danglingEscape position
  | .integerTooLarge _ position | .tooManyDigits _ position => some position
  | _ => none

end Failure

namespace Word

theorem position_of_unescape {position : Nat} {body : List Char} {failure : Failure}
    (fault : unescape position body = .error failure) : failure.position? = some position := by
  fun_induction unescape position body generalizing failure with
  | case1 | case3 =>
    cases fault
    rfl
  | case2 c rest value escape ih | case4 c rest backslash alone ih => exact ih (eq_error_of_map fault)
  | case5 => cases fault

/-- A word that cannot be read is reported at its place. -/
theorem position_of_read {position : Nat} {c : Char} {cs : List Char} {failure : Failure}
    (fault : read position c cs = .error failure) : failure.position? = some position := by
  simp only [read] at fault
  split_ifs at fault with digit quote name
  · simp only [readNumber] at fault
    split at fault
    · cases fault
    · split_ifs at fault
      all_goals
        cases fault
        rfl
  · unfold readText at fault
    split at fault
    · cases fault
      rfl
    · exact position_of_unescape (eq_error_of_map fault)
  · split at fault
    · cases fault
    · cases fault
      rfl

end Word

namespace Lexeme

/-- Whether a lexeme is a text in quotes. -/
def isText : Lexeme → Bool
  | .text _ => true
  | _ => false

end Lexeme

namespace Token

/-- The number of characters up to the end of a token. -/
def stop (token : Token) : Nat := token.position + token.spelling.length

/-- Whether a token covers the character with an index. -/
def covers (token : Token) (index : Nat) : Bool := decide (token.position ≤ index ∧ index < token.stop)

theorem covers_iff {token : Token} {index : Nat} :
    token.covers index = true ↔ token.position ≤ index ∧ index < token.stop := by
  simp [covers]

/-- A token as it is with lines counted from a later one. -/
def shift (lines : Nat) (token : Token) : Token := { token with line := token.line + lines }

end Token

namespace Scan

/-! ## Word by word -/

/-- How a text is scanned from a place on, word by word. -/
inductive Cuts : (line position : Nat) → List Char → Scan → Prop where
  | nil {line position : Nat} : Cuts line position [] ⟨[], none, line⟩
  | blank {line position : Nat} {c : Char} {rest : List Char} {s : Scan} (blank : isBlank c = true)
      (scanned : Cuts (line + if c = '\n' then 1 else 0) (position + 1) rest s) : Cuts line position (c :: rest) s
  | stuck {line position : Nat} {cs : List Char} {failure : Failure} (place : failure.position? = some position) :
      Cuts line position cs ⟨[], some failure, line⟩
  | word {line position : Nat} {lexeme : Lexeme} {spelling rest : List Char} {s : Scan}
      (reads : ReadsAs lexeme rest spelling) (again : ∀ gap, StartsBlank gap → ReadsAs lexeme gap spelling)
      (newline : '\n' ∈ spelling → lexeme.isText = true) (scanned : Cuts line (position + spelling.length) rest s) :
      Cuts line position (spelling ++ rest) (cons ⟨lexeme, spelling, position, line⟩ s)

/-- Scanning goes word by word. -/
theorem cuts_scanFrom (line position covered : Nat) (cs : List Char) :
    Cuts line (position + covered) (cs.drop covered) (scanFrom line position covered cs) := by
  fun_induction scanFrom line position covered cs with
  | case1 line position covered =>
    rw [List.drop_nil]
    exact .nil
  | case2 line position covered c rest ih =>
    rw [List.drop_succ_cons, Nat.succ_eq_add_one, Nat.add_comm covered, ← Nat.add_assoc]
    exact ih
  | case3 line position c rest space ih =>
    have noLine : c ≠ '\n' := by
      rintro rfl
      cases space
    refine .blank (by rw [isBlank, space, Bool.true_or]) ?_
    rw [if_neg noLine]
    exact ih
  | case4 line position rest newline ih => exact .blank (by decide) ih
  | case5 line position c rest space newline failure read => exact .stuck (Word.position_of_read read)
  | case6 line position c rest space newline lexeme spelling read ih =>
    obtain ⟨tail, shape, reads, text, again⟩ := Word.exists_readsAs_of_read read (by simpa using space) newline
    obtain ⟨inner, rfl, rfl⟩ : ∃ inner, spelling = c :: inner ∧ rest = inner ++ tail := by
      cases reads
      obtain ⟨rfl, rfl⟩ := List.cons.inj shape
      exact ⟨_, rfl, rfl⟩
    rw [List.length_cons, Nat.add_sub_cancel, List.drop_left, Nat.add_right_comm] at ih
    refine .word reads again (fun member => ?_) ih
    obtain ⟨content, rfl⟩ := text member
    rfl

theorem cuts_scan (line : Nat) (text : String) : Cuts line 0 text.toList (scan line text) :=
  cuts_scanFrom line 0 0 text.toList

/-- Where scanning stopped in a text with the given end. -/
def reach (s : Scan) (stop : Nat) : Nat := (s.failure?.bind Failure.position?).getD stop

variable {line position : Nat} {cs : List Char} {s : Scan}

theorem drop_sub {front rest : List Char} {position place : Nat} (later : position + front.length ≤ place) :
    (front ++ rest).drop (place - position) = rest.drop (place - (position + front.length)) := by
  rw [← Nat.sub_sub, List.drop_append, List.drop_eq_nil_of_le (by omega), List.nil_append]

theorem take_sub {front rest : List Char} {position place : Nat} (later : position + front.length ≤ place) :
    (front ++ rest).take (place - position) = front ++ rest.take (place - (position + front.length)) := by
  rw [← Nat.sub_sub, List.take_append, List.take_of_length_le (by omega)]

theorem getElem?_sub {front rest : List Char} {position place : Nat} (later : position + front.length ≤ place) :
    (front ++ rest)[place - position]? = rest[place - (position + front.length)]? := by
  rw [← Nat.sub_sub, List.getElem?_append_right (by omega)]

/-- The tokens of a scan are pieces of its text, at the places that they name. -/
theorem Cuts.pieces (cuts : Cuts line position cs s) :
    ∀ token ∈ s.tokens, position ≤ token.position ∧ token.spelling ≠ []
      ∧ token.spelling <+: cs.drop (token.position - position) := by
  induction cuts with
  | nil | stuck => simp
  | @blank line position c rest s _ _ ih =>
    intro token member
    obtain ⟨later, nonempty, piece⟩ := ih token member
    refine ⟨Nat.le_of_succ_le later, nonempty, ?_⟩
    rw [← List.singleton_append, drop_sub later]
    exact piece
  | @word line position lexeme spelling rest s reads _ _ _ ih =>
    refine List.forall_mem_cons.2 ⟨⟨Nat.le_refl _, ?_, ?_⟩, fun token member => ?_⟩
    · cases reads
      exact List.cons_ne_nil _ _
    · rw [Nat.sub_self]
      exact List.prefix_append _ _
    · obtain ⟨later, nonempty, piece⟩ := ih token member
      rw [drop_sub later]
      exact ⟨Nat.le_trans (Nat.le_add_right _ _) later, nonempty, piece⟩

/-- The tokens of a scan stand one after the other. -/
theorem Cuts.disjoint (cuts : Cuts line position cs s) :
    s.tokens.Pairwise fun token later => token.stop ≤ later.position := by
  induction cuts with
  | nil | stuck => exact .nil
  | blank _ _ ih => exact ih
  | word _ _ _ scanned ih =>
    exact List.pairwise_cons.2 ⟨fun later member => (scanned.pieces later member).1, ih⟩

/-- Between the tokens of a text is white space, as far as it is scanned. -/
theorem Cuts.blank_of_uncovered (cuts : Cuts line position cs s) {place : Nat} {c : Char} (inside : position ≤ place)
    (found : cs[place - position]? = some c) (before : place < s.reach (position + cs.length))
    (uncovered : ∀ token ∈ s.tokens, token.covers place = false) : isBlank c = true := by
  induction cuts with
  | nil => simp at found
  | stuck at_place =>
    rw [reach, Option.bind_some, at_place, Option.getD_some] at before
    exact absurd inside (Nat.not_le.2 before)
  | @blank line position d rest s blank _ ih =>
    obtain rfl | later := Nat.eq_or_lt_of_le inside
    · obtain rfl : d = c := by simpa using found
      exact blank
    · rw [← List.singleton_append, getElem?_sub later] at found
      rw [List.length_cons, Nat.add_comm rest.length, ← Nat.add_assoc] at before
      exact ih later found before uncovered
  | @word line position lexeme spelling rest s _ _ _ _ ih =>
    obtain ⟨notHere, uncovered⟩ := List.forall_mem_cons.1 uncovered
    have later : position + spelling.length ≤ place := by
      by_contra short
      rw [Bool.eq_false_iff, ne_eq, Token.covers_iff] at notHere
      exact notHere ⟨inside, Nat.not_le.1 short⟩
    rw [getElem?_sub later] at found
    rw [List.length_append, ← Nat.add_assoc] at before
    exact ih later found before uncovered

/-- The spelling of every token is read as its lexeme again before white space. -/
theorem Cuts.again (cuts : Cuts line position cs s) :
    ∀ token ∈ s.tokens, ∀ gap, StartsBlank gap → ReadsAs token.lexeme gap token.spelling := by
  induction cuts with
  | nil | stuck => simp
  | blank _ _ ih => exact ih
  | word _ again _ _ ih => exact List.forall_mem_cons.2 ⟨again, ih⟩

/-! ## Lines -/

/-- Whether a character belongs to a text in quotes. -/
def inText (tokens : List Token) (index : Nat) : Bool :=
  tokens.any fun token => token.lexeme.isText && token.covers index

theorem inText_eq_false {tokens : List Token} {index : Nat} (ahead : ∀ token ∈ tokens, index < token.position) :
    inText tokens index = false := by
  rw [inText, List.any_eq_false]
  intro token member
  have uncovered : token.covers index = false := by
    rw [Bool.eq_false_iff, ne_eq, Token.covers_iff]
    exact fun covered => Nat.not_le.2 (ahead token member) covered.1
  simp [uncovered]

/-- How many lines end among some characters from a place on, outside of texts in quotes. -/
def lineEndsAmong (tokens : List Token) (position : Nat) (cs : List Char) : Nat :=
  (cs.zipIdx position).countP fun p => p.1 == '\n' && !inText tokens p.2

/-- How many lines end in a text before an index, outside of texts in quotes. -/
def lineEnds (text : String) (index : Nat) : Nat :=
  lineEndsAmong (scan 1 text).tokens 0 (text.toList.take index)

/-- Where scanning a text stops: at the place where it fails, or at the end. -/
def reached (text : String) : Nat := (scan 1 text).reach text.toList.length

theorem lineEndsAmong_cons (tokens : List Token) (position : Nat) (c : Char) (cs : List Char) :
    lineEndsAmong tokens position (c :: cs)
      = (if c = '\n' ∧ inText tokens position = false then 1 else 0) + lineEndsAmong tokens (position + 1) cs := by
  simp [lineEndsAmong, List.zipIdx_cons, List.countP_cons, Nat.add_comm]

theorem lineEndsAmong_append (tokens : List Token) (position : Nat) (before after : List Char) :
    lineEndsAmong tokens position (before ++ after)
      = lineEndsAmong tokens position before + lineEndsAmong tokens (position + before.length) after := by
  rw [lineEndsAmong, List.zipIdx_append, List.countP_append]
  rfl

/-- No line ends in a token, and a token does not matter for what stands after it. -/
theorem lineEndsAmong_word (token : Token) (newline : '\n' ∈ token.spelling → token.lexeme.isText = true)
    (tokens : List Token) (rest : List Char) :
    lineEndsAmong (token :: tokens) token.position (token.spelling ++ rest) = lineEndsAmong tokens token.stop rest := by
  have inWord : lineEndsAmong (token :: tokens) token.position token.spelling = 0 := by
    refine List.countP_eq_zero.2 fun p member => ?_
    obtain ⟨after, before, found⟩ := List.mem_zipIdx member
    have covered : token.covers p.2 = true := Token.covers_iff.2 ⟨after, before⟩
    simp only [Bool.and_eq_true, beq_iff_eq, not_and]
    intro ends
    have text := newline (ends ▸ found ▸ List.getElem_mem _)
    simp [inText, covered, text]
  have inRest : lineEndsAmong (token :: tokens) token.stop rest = lineEndsAmong tokens token.stop rest := by
    refine List.countP_congr fun p member => ?_
    have after : token.stop ≤ p.2 := (List.mem_zipIdx member).1
    have uncovered : token.covers p.2 = false := by
      rw [Bool.eq_false_iff, ne_eq, Token.covers_iff]
      exact fun covered => Nat.not_le.2 covered.2 after
    simp [inText, uncovered]
  rw [lineEndsAmong_append, inWord, Nat.zero_add]
  exact inRest

/-- A scan names the line of a place: that of a token, or that where it stopped. -/
def Names (s : Scan) (stop place line : Nat) : Prop :=
  (∃ token ∈ s.tokens, token.position = place ∧ token.line = line) ∨ s.reach stop = place ∧ s.line = line

theorem names_cons {token : Token} {stop place line : Nat} (names : (cons token s).Names stop place line) :
    (token.position = place ∧ token.line = line) ∨ s.Names stop place line := by
  obtain ⟨other, member, same⟩ | stopped := names
  · obtain rfl | later := List.mem_cons.1 member
    · exact .inl same
    · exact .inr (.inl ⟨other, later, same⟩)
  · exact .inr (.inr stopped)

/-- The line of a place is the first one and as many as have ended before, outside of texts in quotes. -/
theorem Cuts.line_eq (cuts : Cuts line position cs s) {place line' : Nat}
    (names : s.Names (position + cs.length) place line') :
    position ≤ place ∧ line' = line + lineEndsAmong s.tokens position (cs.take (place - position)) := by
  -- The tokens with which line ends are compared are those of the rest: what stands before it must not matter to them.
  induction cuts with
  | nil =>
    obtain ⟨token, member, -⟩ | ⟨rfl, rfl⟩ := names
    · cases member
    · exact ⟨Nat.le_refl _, by simp [lineEndsAmong]⟩
  | stuck at_place =>
    obtain ⟨token, member, -⟩ | ⟨rfl, rfl⟩ := names
    · cases member
    · simp [reach, at_place, lineEndsAmong]
  | @blank line position c rest s _ scanned ih =>
    rw [List.length_cons, Nat.add_comm rest.length, ← Nat.add_assoc] at names
    obtain ⟨later, lines⟩ := ih names
    refine ⟨Nat.le_of_succ_le later, ?_⟩
    have outside : inText s.tokens position = false :=
      inText_eq_false fun token member => (scanned.pieces token member).1
    rw [← List.singleton_append, take_sub later, List.singleton_append, lineEndsAmong_cons, lines, Nat.add_assoc]
    simp only [outside, and_true]
    rfl
  | @word line position lexeme spelling rest s _ _ newline scanned ih =>
    rw [List.length_append, ← Nat.add_assoc] at names
    obtain ⟨rfl, rfl⟩ | names := names_cons names
    · simp [lineEndsAmong]
    · obtain ⟨later, lines⟩ := ih names
      refine ⟨Nat.le_trans (Nat.le_add_right _ _) later, ?_⟩
      rw [take_sub later, lines]
      exact congrArg (line + ·) (lineEndsAmong_word ⟨lexeme, spelling, position, line⟩ newline _ _).symm

/-! ## Several texts -/

/-- A scan as it is with lines counted from a later one. -/
def shift (lines : Nat) (s : Scan) : Scan := ⟨s.tokens.map (Token.shift lines), s.failure?, s.line + lines⟩

/-- The line in which a text starts matters for nothing but the lines. -/
theorem scanFrom_shift (line lines position covered : Nat) (cs : List Char) :
    scanFrom (line + lines) position covered cs = (scanFrom line position covered cs).shift lines := by
  fun_induction scanFrom line position covered cs with
  | case1 line position covered => rw [scanFrom]; rfl
  | case2 line position covered c rest ih => rw [scanFrom, ih]
  | case3 line position c rest space ih => rw [scanFrom, if_pos space, ih]
  | case4 line position rest newline ih => rw [scanFrom, if_neg newline, if_pos rfl, Nat.add_right_comm, ih]
  | case5 line position c rest space newline failure read =>
    rw [scanFrom, if_neg space, if_neg newline, read]
    rfl
  | case6 line position c rest space newline lexeme spelling read ih =>
    rw [scanFrom, if_neg space, if_neg newline, read]
    simp only [ih]
    rfl

theorem scan_shift (line : Nat) (text : String) : scan (1 + line) text = (scan 1 text).shift line :=
  scanFrom_shift 1 line 0 0 text.toList

theorem line_scan (text : String) : (scan 1 text).line = 1 + lineEnds text (reached text) := by
  have stopped : (scan 1 text).Names (0 + text.toList.length) (reached text) (scan 1 text).line :=
    .inr ⟨by rw [Nat.zero_add, reached], rfl⟩
  exact ((cuts_scan 1 text).line_eq stopped).2

theorem line_of_mem {text : String} {token : Token} (member : token ∈ (scan 1 text).tokens) :
    token.line = 1 + lineEnds text token.position :=
  ((cuts_scan 1 text).line_eq (.inl ⟨token, member, rfl, rfl⟩)).2

/-- How many lines end in texts, outside of texts in quotes and as far as they are scanned. -/
def lineEndsAll (texts : List String) : Nat := (texts.map fun text => lineEnds text (reached text)).sum

/-- A text after others is scanned as it is alone, with the lines after those of the others. -/
theorem getElem?_scanAll (lines : Nat) (before : List String) (text : String) (after : List String) :
    (scanAll (1 + lines) (before ++ text :: after))[before.length]?
      = some ((scan 1 text).shift (lines + lineEndsAll before)) := by
  induction before generalizing lines with
  | nil => simp [scanAll, scan_shift, lineEndsAll]
  | cons first before ih =>
    have next : (scan (1 + lines) first).line = 1 + (lines + lineEnds first (reached first)) := by
      simp only [scan_shift, shift, line_scan]
      omega
    rw [List.cons_append, scanAll, List.length_cons, List.getElem?_cons_succ, next, ih, Nat.add_assoc]
    simp only [lineEndsAll, List.map_cons, List.sum_cons]

/-! ## Words set apart -/

/-- Words with some white space between any two of them. -/
inductive SetApart : List (List Char) → List Char → Prop where
  | nil : SetApart [] []
  | single (word : List Char) : SetApart [word] word
  | cons (word : List Char) {gap : List Char} {next : List Char} {words : List (List Char)} {text : List Char}
      (some : gap ≠ []) (white : ∀ c ∈ gap, c ∈ [' ', '\t', '\r', '\n']) (others : SetApart (next :: words) text) :
      SetApart (word :: next :: words) (word ++ (gap ++ text))

end Scan

namespace Scans

variable {rest gap : List Char} {lexemes : List Lexeme}

/-- White space in front of a text adds nothing. -/
theorem white (white : ∀ c ∈ gap, c ∈ [' ', '\t', '\r', '\n']) (scans : Scans rest lexemes) :
    Scans (gap ++ rest) lexemes := by
  induction gap with
  | nil => exact scans
  | cons c gap ih =>
    obtain ⟨first, others⟩ := List.forall_mem_cons.1 white
    have scanned := ih others
    simp only [List.mem_cons, List.not_mem_nil, or_false] at first
    obtain rfl | rfl | rfl | rfl := first <;> exact fun line position => scanned _ (position + 1)

/-- Words with white space between them are scanned to their lexemes, if each is read as its lexeme before white
space. -/
theorem setApart {tokens : List Token} {text : List Char} (apart : Scan.SetApart (tokens.map Token.spelling) text)
    (again : ∀ token ∈ tokens, ∀ gap, Scan.StartsBlank gap → ReadsAs token.lexeme gap token.spelling) :
    Scans text (tokens.map Token.lexeme) := by
  generalize spellings : tokens.map Token.spelling = words at apart
  induction apart generalizing tokens with
  | nil =>
    obtain rfl := List.map_eq_nil_iff.1 spellings
    exact .nil
  | single word =>
    obtain ⟨token, others, rfl, rfl, none⟩ := List.map_eq_cons_iff.1 spellings
    obtain rfl := List.map_eq_nil_iff.1 none
    have read := Scans.nil.word (again token List.mem_cons_self [] (by simp [Scan.StartsBlank]))
    rwa [List.append_nil] at read
  | @cons word gap next words text some white apart ih =>
    obtain ⟨token, others, rfl, rfl, spelled⟩ := List.map_eq_cons_iff.1 spellings
    obtain ⟨first, later⟩ := List.forall_mem_cons.1 again
    have blank : Scan.StartsBlank (gap ++ text) := by
      obtain ⟨c, gap, rfl⟩ := List.exists_cons_of_ne_nil some
      intro d head
      obtain rfl : c = d := by simpa using head
      exact Scan.isBlank_iff.2 (white c List.mem_cons_self)
    exact ((ih later spelled).white white).word (first _ blank)

end Scans

namespace Scan

/-- Scanning partitions a text. If it does not fail, the tokens are pieces of the text at the places that they name,
none of them empty and each after the one before it, and all characters that none of them covers are white space; the
pieces with any other white space between them are scanned to the same lexemes. Of texts that are scanned one after the
other, in which scanning may fail, each has the lexemes, the pieces, the places and the failure that it has alone, and
the line of a token is one and as many as have ended, outside of texts in quotes, before it in its text and in each of
the earlier ones as far as that was scanned. -/
theorem scan_partitions :
    (∀ line text, (scan line text).failure? = none →
      (∀ token ∈ (scan line text).tokens, token.spelling ≠ [] ∧ token.spelling <+: text.toList.drop token.position)
        ∧ (scan line text).tokens.Pairwise (fun token later =>
          token.position < later.position ∧ token.position + token.spelling.length ≤ later.position)
        ∧ (∀ index c, text.toList[index]? = some c → (∀ token ∈ (scan line text).tokens,
          ¬(token.position ≤ index ∧ index < token.position + token.spelling.length)) → c ∈ [' ', '\t', '\r', '\n'])
        ∧ ∀ line' joined, SetApart ((scan line text).tokens.map Token.spelling) joined →
          (scan line' (String.ofList joined)).failure? = none
            ∧ (scan line' (String.ofList joined)).lexemes = (scan line text).lexemes)
      ∧ ∀ before text after, ∃ s, (scanAll 1 (before ++ text :: after))[before.length]? = some s
        ∧ s.failure? = (scan 1 text).failure?
        ∧ s.tokens.map (fun token => (token.lexeme, token.spelling, token.position))
          = (scan 1 text).tokens.map (fun token => (token.lexeme, token.spelling, token.position))
        ∧ ∀ token ∈ s.tokens, token.line = 1
          + (before.map fun earlier => lineEnds earlier (reached earlier)).sum + lineEnds text token.position := by
  constructor
  · intro line text complete
    have cuts := cuts_scan line text
    refine ⟨fun token member => (cuts.pieces token member).2, ?_, fun index c found uncovered => ?_, ?_⟩
    · refine cuts.disjoint.imp_of_mem fun {token later} member _ after => ⟨?_, after⟩
      have nonempty := List.length_pos_iff.2 (cuts.pieces token member).2.1
      exact Nat.lt_of_lt_of_le (Nat.lt_add_of_pos_right nonempty) after
    · refine isBlank_iff.1 (cuts.blank_of_uncovered (Nat.zero_le index) found ?_ fun token member => ?_)
      · obtain ⟨inside, -⟩ := List.getElem?_eq_some_iff.1 found
        rwa [Nat.zero_add, reach, complete]
      · rw [Bool.eq_false_iff, ne_eq, Token.covers_iff]
        exact uncovered token member
    · intro line' joined apart
      have scans := Scans.setApart apart cuts.again line' 0
      rw [scan, String.toList_ofList]
      exact scans.symm
  · intro before text after
    refine ⟨_, getElem?_scanAll 0 before text after, rfl, ?_, ?_⟩
    · simp [shift, Token.shift]
    · intro token member
      obtain ⟨alone, scanned, rfl⟩ := List.mem_map.1 member
      rw [Nat.zero_add, lineEndsAll, Token.shift, line_of_mem scanned]
      exact Nat.add_right_comm _ _ _

/-- The end of a line in a text in quotes does not count, and neither does the one after a failure. -/
theorem scan_partitions_lines :
    (scan 1 "1 ..\n\tb").lexemes = (scan 1 "1..b").lexemes
      ∧ ∃ s, (scanAll 1 ["\n@\n", "\"x\ny\"\n a"])[1]? = some s ∧ s.failure? = none
        ∧ ∃ token ∈ s.tokens, token.position = 7 ∧ token.line = 3 := by
  obtain ⟨alone, several⟩ := scan_partitions
  constructor
  · obtain ⟨-, -, -, apart⟩ := alone 1 "1..b" rfl
    have joined : SetApart ((scan 1 "1..b").tokens.map Token.spelling) "1 ..\n\tb".toList :=
      @SetApart.cons ['1'] [' '] ['.', '.'] [['b']] _ (by simp) (by simp)
        (@SetApart.cons ['.', '.'] ['\n', '\t'] ['b'] [] _ (by simp) (by simp) (.single ['b']))
    exact (apart 1 _ joined).2
  · obtain ⟨s, scanned, complete, same, lines⟩ := several ["\n@\n"] "\"x\ny\"\n a" []
    have name : (Lexeme.name "a", ['a'], 7)
        ∈ s.tokens.map fun token => (token.lexeme, token.spelling, token.position) := by
      rw [same]
      exact .tail _ (.head _)
    obtain ⟨token, member, shape⟩ := List.mem_map.1 name
    obtain ⟨-, place⟩ := Prod.mk.inj (Prod.mk.inj shape).2
    refine ⟨s, scanned, complete, token, member, place, ?_⟩
    rw [lines token member, place]
    rfl

end Scan

end NamedExpr
