import Mathlib.Data.List.Basic
import ScopedLisp.Proofs.Token.Lexing

/-!
# Patterns of lexemes

The lexemes as they are specified: nine patterns in a fixed order, of which the first that fits is
taken. A pattern is matched by trying its alternatives in order and by repeating as often as
possible, and an earlier choice is taken back where a later part of the pattern does not fit.

The scanner makes one decision at each character and never goes back. It takes what the patterns
take.
-/

namespace ScopedLisp

open Text (isBlank)

/-- Patterns over texts. -/
inductive Pattern where
  | literal (word : List Char)
  | one (allowed : Char → Bool)
  | sequence (first second : Pattern)
  | choice (first second : Pattern)
  | repeated (item : Pattern)
  /-- Takes nothing, and fits where none of these characters follows. -/
  | notBefore (barred : Char → Bool)

namespace Pattern

/-- What can be left after a number of steps, the most steps first. -/
def endsAfter (step : List Char → List (List Char)) : Nat → List Char → List (List Char)
  | 0, cs => [cs]
  | steps + 1, cs => (step cs).flatMap (endsAfter step steps) ++ [cs]

/-- What can be left of a text behind a match at its beginning, in the order in which the matches
are tried. Each repetition takes a character at least, so there are no more repetitions than
characters. -/
def ends : Pattern → List Char → List (List Char)
  | literal word, cs => if word <+: cs then [cs.drop word.length] else []
  | one allowed, c :: rest => if allowed c then [rest] else []
  | one _, [] => []
  | sequence first second, cs => (first.ends cs).flatMap second.ends
  | choice first second, cs => first.ends cs ++ second.ends cs
  | repeated item, cs => endsAfter item.ends cs.length cs
  | notBefore barred, cs => if cs.head?.any barred then [] else [cs]

/-- What is left behind the match that is found first. -/
def first? (pattern : Pattern) (cs : List Char) : Option (List Char) := (pattern.ends cs).head?

/-- One or more characters of a class. -/
def run (allowed : Char → Bool) : Pattern := sequence (one allowed) (repeated (one allowed))

/-- No match of the pattern is empty. -/
def consumes : Pattern → Bool
  | literal word => !word.isEmpty
  | one _ => true
  | sequence first second => first.consumes || second.consumes
  | choice first second => first.consumes && second.consumes
  | repeated _ | notBefore _ => false

/-! ### What a match takes -/

/-- What is left after some repetitions is a suffix, if what one repetition leaves is one. -/
theorem exists_taken_endsAfter {step : List Char → List (List Char)}
    (taken : ∀ cs rest, rest ∈ step cs → ∃ text, cs = text ++ rest) {steps : Nat}
    {cs rest : List Char} (member : rest ∈ endsAfter step steps cs) :
    ∃ text, cs = text ++ rest := by
  induction steps generalizing cs with
  | zero => exact ⟨[], (List.mem_singleton.mp member).symm⟩
  | succ steps ih =>
    rcases List.mem_append.mp member with later | now
    · obtain ⟨mid, first, others⟩ := List.mem_flatMap.mp later
      obtain ⟨text, rfl⟩ := taken cs mid first
      obtain ⟨more, rfl⟩ := ih others
      exact ⟨text ++ more, (List.append_assoc text more rest).symm⟩
    · exact ⟨[], (List.mem_singleton.mp now).symm⟩

/-- What is left is the end of the text. The part that was taken is empty only for patterns that
allow it. -/
theorem exists_taken (pattern : Pattern) {cs rest : List Char} (member : rest ∈ pattern.ends cs) :
    ∃ text, cs = text ++ rest ∧ (pattern.consumes = true → text ≠ []) := by
  induction pattern generalizing cs rest with
  | literal word =>
    rw [ends] at member
    split at member
    · next begins =>
      obtain ⟨tail, rfl⟩ := begins
      rw [List.drop_left, List.mem_singleton] at member
      refine ⟨word, by rw [member], fun some_word => ?_⟩
      simpa [consumes] using some_word
    · cases member
  | one allowed =>
    cases cs with
    | nil => cases member
    | cons c more =>
      rw [ends] at member
      split at member
      · rw [List.mem_singleton] at member
        exact ⟨[c], by rw [member]; rfl, fun _ => List.cons_ne_nil c []⟩
      · cases member
  | sequence first second first_ih second_ih =>
    obtain ⟨mid, head, tail⟩ := List.mem_flatMap.mp member
    obtain ⟨text, rfl, some_text⟩ := first_ih head
    obtain ⟨more, rfl, some_more⟩ := second_ih tail
    refine ⟨text ++ more, (List.append_assoc text more rest).symm, fun either => ?_⟩
    rcases Bool.or_eq_true_iff.mp either with before | after
    · exact List.append_ne_nil_of_left_ne_nil (some_text before) more
    · exact List.append_ne_nil_of_right_ne_nil text (some_more after)
  | choice first second first_ih second_ih =>
    rcases List.mem_append.mp member with left | right
    · obtain ⟨text, same, nonempty⟩ := first_ih left
      exact ⟨text, same, fun both => nonempty (Bool.and_eq_true_iff.mp both).1⟩
    · obtain ⟨text, same, nonempty⟩ := second_ih right
      exact ⟨text, same, fun both => nonempty (Bool.and_eq_true_iff.mp both).2⟩
  | repeated item ih =>
    have taken (cs rest : List Char) (member : rest ∈ item.ends cs) : ∃ text, cs = text ++ rest :=
      (ih member).imp fun _ both => both.1
    obtain ⟨text, same⟩ := exists_taken_endsAfter taken member
    exact ⟨text, same, nofun⟩
  | notBefore barred =>
    rw [ends] at member
    split at member
    · cases member
    · exact ⟨[], (List.mem_singleton.mp member).symm, nofun⟩

/-! ### Finding the first match -/

section First

variable (p q : Pattern) (word cs : List Char) (allowed : Char → Bool)

/-- A literal fits where the text begins with it. -/
theorem first?_literal :
    (literal word).first? cs = if word <+: cs then some (cs.drop word.length) else none := by
  unfold first? ends
  split <;> rfl

theorem first?_one_cons (c : Char) (rest : List Char) :
    (one allowed).first? (c :: rest) = if allowed c then some rest else none := by
  unfold first? ends
  split <;> rfl

/-- The first alternative decides where it fits, and the second where it does not. -/
theorem first?_choice : (choice p q).first? cs = (p.first? cs).or (q.first? cs) :=
  List.head?_append

/-- Behind a literal, which can be matched in one way only, the rest of the pattern decides. -/
theorem first?_literal_sequence : (sequence (literal word) p).first? cs =
    if word <+: cs then p.first? (cs.drop word.length) else none := by
  simp only [first?, ends]
  split
  · rw [List.flatMap_singleton]
  · rfl

/-- An alternative is taken back if what follows it does not fit, and then the other is tried. -/
theorem first?_choice_sequence (r : Pattern) : (sequence (choice p q) r).first? cs =
    ((sequence p r).first? cs).or ((sequence q r).first? cs) := by
  simp only [first?, ends, List.flatMap_append, List.head?_append]

/-- Repeating a class of characters as often as possible takes the longest run of them. There must
be enough steps for it. -/
theorem head?_endsAfter_one {steps : Nat} (enough : cs.length ≤ steps) :
    (endsAfter (one allowed).ends steps cs).head? = some (cs.dropWhile allowed) := by
  induction steps generalizing cs with
  | zero =>
    obtain rfl := List.eq_nil_of_length_eq_zero (Nat.le_zero.mp enough)
    rfl
  | succ steps ih =>
    cases cs with
    | nil => rfl
    | cons c rest =>
      simp only [endsAfter, ends]
      by_cases inside : allowed c = true
      · have later := ih rest (Nat.le_of_succ_le_succ enough)
        rw [if_pos inside, List.flatMap_singleton, List.head?_append, later,
          List.dropWhile_cons_of_pos inside]
        rfl
      · rw [if_neg inside, List.dropWhile_cons_of_neg inside]
        rfl

/-- A repeated class takes all characters up to the first one outside of it. -/
theorem first?_repeated_one : (repeated (one allowed)).first? cs = some (cs.dropWhile allowed) :=
  head?_endsAfter_one cs allowed (Nat.le_refl _)

/-- A run needs a character of the class and takes all that follow it. -/
theorem first?_run_cons (c : Char) (rest : List Char) : (run allowed).first? (c :: rest) =
    if allowed c then some (rest.dropWhile allowed) else none := by
  by_cases inside : allowed c = true
  · have later := first?_repeated_one rest allowed
    rw [if_pos inside, ← later]
    simp only [run, first?, ends, if_pos inside, List.flatMap_singleton]
  · rw [if_neg inside]
    simp only [run, first?, ends, if_neg inside, List.flatMap_nil, List.head?_nil]

end First

end Pattern

/-! ### The nine patterns -/

namespace Lexeme

open Pattern

/-- A character that is neither blank nor one of these. -/
def noneOf (marks : List Char) (c : Char) : Bool := !isBlank c && !marks.contains c

/-- A character inside a string literal, which may have a backslash in front. -/
def stringPart : Pattern :=
  choice (sequence (literal ['\\']) (one fun _ => true)) (one fun c => c != '\\' && c != '\x22')

/-- Characters that do not end a character literal or a boolean. -/
def inWord : Char → Bool := noneOf ['(', ')', '\x27', '\x22', ';']

def commentPattern : Pattern := sequence (literal [';']) (repeated (one (· != '\n')))

def stringPattern : Pattern :=
  sequence (literal ['\x22']) (sequence (repeated stringPart) (literal ['\x22']))

def characterPattern : Pattern :=
  sequence (literal ['#', '\\']) (choice (run inWord) (one (!isBlank ·)))

def booleanPattern : Pattern :=
  sequence (literal ['#']) <|
    sequence
      (choice (literal ['t', 'r', 'u', 'e'])
        (choice (literal ['f', 'a', 'l', 's', 'e']) (choice (literal ['t']) (literal ['f']))))
      (notBefore inWord)

def symbolPattern : Pattern := run (noneOf ['(', ')', '\x27', '\x22', ',', ';'])

/-- What a lexeme is the beginning of: a comment to the end of the line, a block comment or a
token. -/
inductive Class where
  | comment | block
  | token (kind : TokenKind)
  deriving DecidableEq, Repr

/-- The patterns in the order in which they are tried. -/
def patterns : List (Class × Pattern) :=
  [(.comment, commentPattern), (.block, literal ['#', '|']), (.token .quote, literal ['\x27']),
   (.token .openList, literal ['(']), (.token .closeList, literal [')']),
   (.token .string, stringPattern), (.token .character, characterPattern),
   (.token .boolean, booleanPattern), (.token .symbol, symbolPattern)]

/-- The first pattern that fits at the beginning of a text, and what it leaves. -/
def firstMatch? (cs : List Char) : Option (Class × List Char) :=
  patterns.findSome? fun (kind, pattern) => (pattern.first? cs).map (kind, ·)

/-- The pattern that is found first is one of the nine, and fits. -/
theorem first?_of_firstMatch? {cs rest : List Char} {found : Class}
    (fits : firstMatch? cs = some (found, rest)) :
    ∃ pattern, (found, pattern) ∈ patterns ∧ pattern.first? cs = some rest := by
  obtain ⟨⟨kind, pattern⟩, member, same⟩ := List.exists_of_findSome?_eq_some fits
  obtain ⟨left, first, pair⟩ := Option.map_eq_some_iff.mp same
  cases pair
  exact ⟨pattern, member, first⟩

/-- Every match takes a character at least, and leaves the rest of the text. -/
theorem exists_taken_of_firstMatch? {cs rest : List Char} {found : Class}
    (fits : firstMatch? cs = some (found, rest)) : ∃ text, text ≠ [] ∧ cs = text ++ rest := by
  have all : ∀ entry ∈ patterns, entry.2.consumes = true := by decide
  obtain ⟨pattern, member, first⟩ := first?_of_firstMatch? fits
  obtain ⟨text, whole, nonempty⟩ := exists_taken pattern (List.mem_of_head? first)
  exact ⟨text, nonempty (all _ member), whole⟩

/-! ### What the scanner takes -/

/-- The pattern of a word goes on exactly where the scanner sees no delimiter. -/
theorem inWord_eq (c : Char) : inWord c = !isDelimiter c := by
  simp only [inWord, noneOf, isDelimiter, Bool.not_or]
  congr 1
  rw [Bool.eq_iff_iff]
  simp only [List.contains_eq_mem, Bool.not_eq_true', decide_eq_false_iff_not, List.mem_cons]
  grind

/-- The class of the symbol pattern is the class the scanner uses. -/
theorem noneOf_eq_isSymbolChar (c : Char) :
    noneOf ['(', ')', '\x27', '\x22', ',', ';'] c = isSymbolChar c := by
  rw [Bool.eq_iff_iff, isSymbolChar_iff]
  simp only [noneOf, Bool.and_eq_true, Bool.not_eq_true', List.contains_eq_mem,
    decide_eq_false_iff_not]

section Strings

/-- A backslash takes the character behind it along, and there is no other way to match the two. -/
theorem ends_stringPart_escape (c : Char) (rest : List Char) :
    stringPart.ends ('\\' :: c :: rest) = [rest] := by
  simp [stringPart, ends]

/-- A character that is neither a quotation mark nor a backslash is matched alone. -/
theorem ends_stringPart_plain {c : Char} (not_mark : c ≠ '\x22') (not_backslash : c ≠ '\\')
    (rest : List Char) : stringPart.ends (c :: rest) = [rest] := by
  simp [stringPart, ends, not_mark, not_backslash, Ne.symm not_backslash]

/-- What can be left behind the parts of a string literal and its closing mark. -/
def stringEnds (steps : Nat) (cs : List Char) : List (List Char) :=
  (endsAfter stringPart.ends steps cs).flatMap (literal ['\x22']).ends

/-- Where a part begins, the closing mark does not stand, so the part is taken. -/
theorem head?_stringEnds_succ {cs rest : List Char} (part : stringPart.ends cs = [rest])
    (open_still : ¬['\x22'] <+: cs) (steps : Nat) :
    (stringEnds (steps + 1) cs).head? = (stringEnds steps rest).head? := by
  simp only [stringEnds, endsAfter, part, List.flatMap_singleton, List.flatMap_append,
    List.head?_append, ends, if_neg open_still, List.head?_nil, Option.or_none]

/-- A string ends at the first quotation mark that is not escaped, where the scanner counts to. No
choice inside a string can be made otherwise, so going back finds no other end. -/
theorem head?_stringEnds {steps : Nat} (cs : List Char) (enough : cs.length ≤ steps) :
    (stringEnds steps cs).head? = (stringLength cs).map cs.drop := by
  induction cs using stringLength.induct generalizing steps with
  | case1 => cases steps <;> rfl
  | case2 rest => cases steps <;> simp [stringEnds, endsAfter, ends, stringPart, stringLength]
  | case3 c rest ih =>
    obtain ⟨steps, rfl⟩ := Nat.exists_eq_add_one_of_ne_zero (Nat.ne_zero_of_lt enough)
    have shorter : rest.length ≤ steps := by
      simp only [List.length_cons] at enough
      omega
    rw [head?_stringEnds_succ (ends_stringPart_escape c rest) (by simp), ih shorter, stringLength,
      Option.map_map]
    rfl
  | case4 c rest not_mark not_escape ih =>
    obtain ⟨steps, rfl⟩ := Nat.exists_eq_add_one_of_ne_zero (Nat.ne_zero_of_lt enough)
    have longer : stringLength (c :: rest) = (stringLength rest).map (· + 1) := by
      rw [stringLength] <;> assumption
    rw [longer, Option.map_map]
    by_cases backslash : c = '\\'
    · -- a backslash at the very end is no part, and no closing mark follows it
      cases rest with
      | nil =>
        subst backslash
        rfl
      | cons d more => exact absurd rfl (not_escape d more backslash)
    · rw [head?_stringEnds_succ (ends_stringPart_plain not_mark backslash rest)
        (by simp [Ne.symm not_mark]), ih (Nat.le_of_succ_le_succ enough)]
      rfl

/-- The string pattern takes what the scanner takes for a string. -/
theorem first?_stringPattern (c : Char) (rest : List Char) : stringPattern.first? (c :: rest) =
    if c = '\x22' then (stringLength rest).map rest.drop else none := by
  have inside := head?_stringEnds rest (Nat.le_refl _)
  rw [stringPattern, first?_literal_sequence]
  simp only [List.cons_prefix_cons, List.nil_prefix, and_true, eq_comm]
  split
  · exact inside
  · rfl

end Strings

/-- The comment pattern takes all up to the end of the line. -/
theorem first?_commentPattern (c : Char) (rest : List Char) : commentPattern.first? (c :: rest) =
    if c = ';' then some (rest.dropWhile (· != '\n')) else none := by
  rw [commentPattern, first?_literal_sequence]
  simp only [List.cons_prefix_cons, List.nil_prefix, and_true, eq_comm, first?_repeated_one]
  rfl

/-- The symbol pattern takes the longest run of symbol characters. -/
theorem first?_symbolPattern (c : Char) (rest : List Char) : symbolPattern.first? (c :: rest) =
    if isSymbolChar c then some (rest.dropWhile isSymbolChar) else none := by
  have same : noneOf ['(', ')', '\x27', '\x22', ',', ';'] = isSymbolChar :=
    funext noneOf_eq_isSymbolChar
  rw [symbolPattern, first?_run_cons, same]

/-- Dropping as many characters as the longest run has drops the run. -/
theorem drop_length_takeWhile (allowed : Char → Bool) (cs : List Char) :
    cs.drop (cs.takeWhile allowed).length = cs.dropWhile allowed := by
  have parts : cs.takeWhile allowed ++ cs.dropWhile allowed = cs := List.takeWhile_append_dropWhile
  have cut := congrArg (List.drop (cs.takeWhile allowed).length) parts
  rw [List.drop_left] at cut
  exact cut.symm

/-- A character literal: the longest run without delimiters, or else one visible character. -/
theorem first?_afterMark (name : List Char) :
    (choice (run inWord) (one (!isBlank ·))).first? name =
      (characterLength name).map name.drop := by
  have same : inWord = (!isDelimiter ·) := funext inWord_eq
  cases name with
  | nil => rfl
  | cons c more =>
    simp only [first?_choice, first?_run_cons, first?_one_cons, same, characterLength]
    cases inside : isDelimiter c with
    | false =>
      have run : (c :: more).takeWhile (!isDelimiter ·) = c :: more.takeWhile (!isDelimiter ·) :=
        List.takeWhile_cons_of_pos (by rw [inside]; rfl)
      rw [run, ← drop_length_takeWhile]
      rfl
    | true =>
      have run : (c :: more).takeWhile (!isDelimiter ·) = [] :=
        List.takeWhile_cons_of_neg (by rw [inside]; decide)
      rw [run]
      change none.or (if !isBlank c then some more else none) =
        (if isBlank c then none else some 1).map (c :: more).drop
      cases isBlank c <;> rfl

/-- The character pattern takes what the scanner takes for a character. -/
theorem first?_characterPattern (cs : List Char) :
    characterPattern.first? cs =
      if ['#', '\\'] <+: cs then (characterLength (cs.drop 2)).map (cs.drop 2).drop else none := by
  rw [characterPattern, first?_literal_sequence]
  simp only [first?_afterMark]
  rfl

/-- The end of a word fits where a delimiter or the end of the text follows. -/
theorem first?_notBefore_of_delimited {cs : List Char} (delimited : Delimited cs) :
    (notBefore inWord).first? cs = some cs := by
  have outside : ¬cs.head?.any inWord = true := by
    rw [Option.any_eq_true_iff_get]
    rintro ⟨some_head, inside⟩
    rw [inWord_eq, delimited _ (Option.get_mem some_head)] at inside
    cases inside
  rw [first?, ends, if_neg outside]
  rfl

theorem first?_notBefore_of_not_delimited {cs : List Char} (undelimited : ¬Delimited cs) :
    (notBefore inWord).first? cs = none := by
  have inside : cs.head?.any inWord = true := by
    simp only [Delimited, Classical.not_forall] at undelimited
    obtain ⟨c, head, other⟩ := undelimited
    rw [Option.mem_def.mp head, Option.any_some, inWord_eq, Bool.eq_false_iff.mpr other]
    rfl
  rw [first?, ends, if_pos inside]
  rfl

/-- Where a word stops, a delimiter or the end of the text follows. -/
theorem delimited_dropWhile (cs : List Char) : Delimited (cs.dropWhile (!isDelimiter ·)) := by
  intro c head
  have outside := List.head?_dropWhile_not (!isDelimiter ·) cs
  rw [Option.mem_def.mp head] at outside
  simpa using outside

/-- A word in front of a delimiter is the longest run without delimiters. -/
theorem first?_name {word : List Char} (plain : word.all (!isDelimiter ·) = true)
    (rest : List Char) : (sequence (literal word) (notBefore inWord)).first? rest =
      if rest.takeWhile (!isDelimiter ·) = word then some (rest.dropWhile (!isDelimiter ·))
      else none := by
  rw [first?_literal_sequence]
  by_cases run : rest.takeWhile (!isDelimiter ·) = word
  · have begins : word <+: rest := run ▸ List.takeWhile_prefix _
    rw [if_pos run, if_pos begins, ← run, drop_length_takeWhile,
      first?_notBefore_of_delimited (delimited_dropWhile rest)]
  · rw [if_neg run]
    split
    · next begins =>
      obtain ⟨tail, rfl⟩ := begins
      rw [List.drop_left]
      apply first?_notBefore_of_not_delimited
      intro delimited
      refine run (takeWhile_not_isDelimiter (fun c inside => ?_) delimited)
      exact Bool.not_eq_true' _ ▸ List.all_eq_true.mp plain c inside
    · rfl

/-- The boolean pattern takes the whole word behind the mark, if that word names a boolean. -/
theorem first?_booleanPattern (c : Char) (rest : List Char) :
    booleanPattern.first? (c :: rest) =
      if c = '#' ∧ rest.takeWhile (!isDelimiter ·) ∈ booleanNames then
        some (rest.dropWhile (!isDelimiter ·)) else none := by
  have of_true := @first?_name ['t', 'r', 'u', 'e'] rfl rest
  have of_false := @first?_name ['f', 'a', 'l', 's', 'e'] rfl rest
  have of_t := @first?_name ['t'] rfl rest
  have of_f := @first?_name ['f'] rfl rest
  rw [booleanPattern, first?_literal_sequence]
  simp only [List.cons_prefix_cons, List.nil_prefix, and_true, List.length_cons, List.length_nil,
    List.drop_succ_cons, List.drop_zero, first?_choice_sequence, of_true, of_false, of_t, of_f,
    booleanNames, List.mem_cons, List.not_mem_nil, or_false]
  generalize rest.takeWhile (!isDelimiter ·) = run
  generalize rest.dropWhile (!isDelimiter ·) = tail
  grind

/-! ### Which pattern fits first -/

section Matches

variable {c : Char} {rest : List Char}

/-- The tokens of one character. -/
theorem firstMatch?_mark {mark : Char} {kind : TokenKind}
    (listed : (mark, kind) ∈ [('\x27', .quote), ('(', TokenKind.openList), (')', .closeList)]) :
    firstMatch? (mark :: rest) = some (.token kind, rest) := by
  simp only [List.mem_cons, Prod.mk.injEq, List.not_mem_nil, or_false] at listed
  rcases listed with ⟨rfl, rfl⟩ | ⟨rfl, rfl⟩ | ⟨rfl, rfl⟩ <;>
    simp [firstMatch?, patterns, first?_commentPattern, first?_literal]

theorem firstMatch?_string {length : Nat} (taken : stringLength rest = some length) :
    firstMatch? ('\x22' :: rest) = some (.token .string, rest.drop length) := by
  simp [firstMatch?, patterns, first?_commentPattern, first?_literal, first?_stringPattern, taken]

/-- No pattern fits at a quotation mark whose string is never closed. -/
theorem firstMatch?_openString (never : stringLength rest = none) :
    firstMatch? ('\x22' :: rest) = none := by
  have no_symbol : isSymbolChar '\x22' = false := by decide
  simp [firstMatch?, patterns, first?_commentPattern, first?_literal, first?_stringPattern,
    first?_characterPattern, first?_booleanPattern, first?_symbolPattern, never, no_symbol]

/-- No pattern fits at a comma. -/
theorem firstMatch?_comma : firstMatch? (',' :: rest) = none := by
  have no_symbol : isSymbolChar ',' = false := by decide
  simp [firstMatch?, patterns, first?_commentPattern, first?_literal, first?_stringPattern,
    first?_characterPattern, first?_booleanPattern, first?_symbolPattern, no_symbol]

/-- The mark of a block comment comes before all other readings of its first character. -/
theorem firstMatch?_block : firstMatch? ('#' :: '|' :: rest) = some (.block, rest) := by
  simp [firstMatch?, patterns, first?_commentPattern, first?_literal]

/-- A character is found where no block comment begins. -/
theorem firstMatch?_character {name : List Char} {length : Nat}
    (taken : characterLength name = some length) :
    firstMatch? ('#' :: '\\' :: name) = some (.token .character, name.drop length) := by
  simp [firstMatch?, patterns, first?_commentPattern, first?_literal, first?_stringPattern,
    first?_characterPattern, taken]

/-- A boolean is found where neither a block comment nor a character begins. -/
theorem firstMatch?_boolean (no_block : ¬['#', '|'] <+: '#' :: rest)
    (no_character : characterPattern.first? ('#' :: rest) = none)
    (named : rest.takeWhile (!isDelimiter ·) ∈ booleanNames) :
    firstMatch? ('#' :: rest) = some (.token .boolean, rest.dropWhile (!isDelimiter ·)) := by
  have boolean := first?_booleanPattern '#' rest
  rw [if_pos ⟨rfl, named⟩] at boolean
  simp [firstMatch?, patterns, first?_commentPattern, first?_literal, first?_stringPattern,
    no_character, boolean, no_block]

/-- A symbol is taken where no pattern before it fits. -/
theorem firstMatch?_symbol (plain : isSymbolChar c = true) (no_block : ¬['#', '|'] <+: c :: rest)
    (no_character : characterPattern.first? (c :: rest) = none)
    (no_boolean : booleanPattern.first? (c :: rest) = none) :
    firstMatch? (c :: rest) = some (.token .symbol, rest.dropWhile isSymbolChar) := by
  have marks := (isSymbolChar_iff.mp plain).2
  simp only [List.mem_cons, List.not_mem_nil, or_false, not_or] at marks
  obtain ⟨not_open, not_close, not_quote, not_string, -, not_comment⟩ := marks
  simp [firstMatch?, patterns, first?_commentPattern, first?_literal, first?_stringPattern,
    first?_symbolPattern, no_character, no_boolean, no_block, not_comment, not_quote, not_open,
    not_close, not_string, plain, eq_comm]

/-- The mark of a character begins no boolean. -/
theorem first?_booleanPattern_backslash (name : List Char) :
    booleanPattern.first? ('#' :: '\\' :: name) = none := by
  have heads : ∀ word ∈ booleanNames, word.head? ≠ some '\\' := by decide
  rw [first?_booleanPattern, if_neg]
  rintro ⟨-, named⟩
  exact heads _ named (by rw [List.takeWhile_cons_of_pos (by decide)]; rfl)

end Matches

end Lexeme

end ScopedLisp
