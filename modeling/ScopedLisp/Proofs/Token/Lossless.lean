import Mathlib.Data.List.TakeWhile
import ScopedLisp.Proofs.Token.Pattern

/-!
# Nothing of a text is lost

A source text is cut into gaps and tokens. Gaps are blanks and comments, and every token is what
the first pattern that fits takes where the token begins. The cut reaches the end of the text, or
a place where the text goes on with something that no pattern fits, or with a block comment that
is never closed.
-/

namespace ScopedLisp

open Text (isBlank)

namespace Lexeme

/-! ### Strings -/

/-- The text between the marks of a string literal: a backslash has a character behind it, and a
mark has a backslash in front. -/
inductive IsStringBody : List Char → Prop where
  | nil : IsStringBody []
  | escape (c : Char) {body : List Char} (rest : IsStringBody body) :
    IsStringBody ('\\' :: c :: body)
  | plain {c : Char} {body : List Char} (not_backslash : c ≠ '\\') (not_mark : c ≠ '\x22')
    (rest : IsStringBody body) : IsStringBody (c :: body)

theorem IsStringBody.stringLength {body : List Char} (closed : IsStringBody body)
    (rest : List Char) : stringLength (body ++ '\x22' :: rest) = some (body.length + 1) := by
  induction closed with
  | nil => rfl
  | escape c _ ih =>
    rw [List.cons_append, List.cons_append, Lexeme.stringLength, ih]
    rfl
  | @plain c body not_backslash not_mark _ ih =>
    have longer : Lexeme.stringLength (c :: (body ++ '\x22' :: rest)) =
        (Lexeme.stringLength (body ++ '\x22' :: rest)).map (· + 1) := by
      rw [Lexeme.stringLength]
      · exact not_mark
      · rintro _ _ rfl
        exact absurd rfl not_backslash
    rw [List.cons_append, longer, ih]
    rfl

theorem exists_body_of_stringLength {cs : List Char} {length : Nat}
    (taken : stringLength cs = some length) :
    ∃ body rest, cs = body ++ '\x22' :: rest ∧ IsStringBody body ∧ length = body.length + 1 := by
  induction cs using stringLength.induct generalizing length with
  | case1 => cases taken
  | case2 rest =>
    cases taken
    exact ⟨[], rest, rfl, .nil, rfl⟩
  | case3 c rest ih =>
    rw [stringLength, Option.map_eq_some_iff] at taken
    obtain ⟨shorter, taken, rfl⟩ := taken
    obtain ⟨body, tail, rfl, closed, rfl⟩ := ih taken
    exact ⟨'\\' :: c :: body, tail, rfl, .escape c closed, rfl⟩
  | case4 c rest not_mark not_escape ih =>
    have longer : stringLength (c :: rest) = (stringLength rest).map (· + 1) := by
      rw [stringLength] <;> assumption
    rw [longer, Option.map_eq_some_iff] at taken
    obtain ⟨shorter, taken, rfl⟩ := taken
    obtain ⟨body, tail, rfl, closed, rfl⟩ := ih taken
    have not_backslash : c ≠ '\\' := by
      rintro rfl
      cases body with
      | nil => exact not_escape _ _ rfl rfl
      | cons d more => exact not_escape _ _ rfl rfl
    exact ⟨c :: body, tail, rfl, .plain not_backslash not_mark closed, rfl⟩

/-! ### Block comments -/

/-- The text behind the opening mark of a block comment, up to and with its closing mark. Comments
inside it are closed before it is. -/
inductive InBlock : List Char → Prop where
  | close : InBlock ['|', '#']
  | nested {inner rest : List Char} (closed : InBlock inner) (later : InBlock rest) :
    InBlock ('#' :: '|' :: (inner ++ rest))
  | char {c : Char} {rest : List Char} (not_open : ¬['#', '|'] <+: c :: rest)
    (not_close : ¬['|', '#'] <+: c :: rest) (later : InBlock rest) : InBlock (c :: rest)

theorem blockLength_char {depth : Nat} {c : Char} {rest : List Char}
    (not_open : ¬['#', '|'] <+: c :: rest) (not_close : ¬['|', '#'] <+: c :: rest) :
    blockLength (depth + 1) (c :: rest) = (blockLength (depth + 1) rest).map (· + 1) := by
  rw [blockLength]
  · rintro more rfl rfl
    exact not_open (List.prefix_append ['#', '|'] more)
  · rintro more rfl rfl
    exact not_close (List.prefix_append ['|', '#'] more)

theorem InBlock.ne_nil {cs : List Char} (closed : InBlock cs) : cs ≠ [] := by
  cases closed <;> exact List.cons_ne_nil _ _

/-- A mark of two characters at the beginning of a longer text lies inside the text. -/
theorem not_mark_append {a b c : Char} {cs : List Char} (nonempty : cs ≠ [])
    (other : ¬[a, b] <+: c :: cs) (rest : List Char) : ¬[a, b] <+: c :: (cs ++ rest) := by
  intro mark
  obtain ⟨d, more, rfl⟩ := List.exists_cons_of_ne_nil nonempty
  apply other
  apply List.prefix_of_prefix_length_le mark (List.prefix_append (c :: d :: more) rest)
  simp only [List.length_cons, List.length_nil]
  omega

/-- A closed text takes one level off, whatever the level. -/
theorem InBlock.blockLength {cs : List Char} (closed : InBlock cs) (depth : Nat)
    (rest : List Char) : blockLength (depth + 1) (cs ++ rest) =
      (blockLength depth rest).map (· + cs.length) := by
  induction closed generalizing depth rest with
  | close => rfl
  | @nested inner outer _ _ inner_ih outer_ih =>
    have opened : Lexeme.blockLength (depth + 1) ('#' :: '|' :: (inner ++ (outer ++ rest))) =
        (Lexeme.blockLength (depth + 2) (inner ++ (outer ++ rest))).map (· + 2) := by
      rw [Lexeme.blockLength]
    rw [List.cons_append, List.cons_append, List.append_assoc, opened, inner_ih, outer_ih,
      Option.map_map, Option.map_map]
    congr 1
    funext length
    simp only [Function.comp_apply, List.length_cons, List.length_append]
    omega
  | char not_open not_close later ih =>
    rw [List.cons_append, blockLength_char (not_mark_append later.ne_nil not_open rest)
      (not_mark_append later.ne_nil not_close rest), ih, Option.map_map]
    rfl

/-- Where a level is closed, a closed text stands in front. -/
theorem exists_inBlock_of_blockLength {depth length : Nat} (cs : List Char)
    (taken : blockLength (depth + 1) cs = some length) :
    ∃ inner rest remaining, cs = inner ++ rest ∧ InBlock inner ∧
      blockLength depth rest = some remaining ∧ length = inner.length + remaining := by
  induction size : cs.length using Nat.strongRecOn generalizing cs depth length with
  | _ n ih =>
    subst size
    by_cases opens : ['#', '|'] <+: cs
    · obtain ⟨more, rfl⟩ := opens
      rw [List.cons_append, List.singleton_append, blockLength, Option.map_eq_some_iff] at taken
      obtain ⟨length, taken, rfl⟩ := taken
      obtain ⟨inner, rest, remaining, rfl, closed, open_still, rfl⟩ :=
        ih _ (by simp only [List.length_append, List.length_cons]; omega) more taken rfl
      obtain ⟨outer, tail, left, rfl, closed', remains, rfl⟩ :=
        ih _ (by simp only [List.length_append, List.length_cons]; omega) rest open_still rfl
      refine ⟨'#' :: '|' :: (inner ++ outer), tail, left, ?_, .nested closed closed', remains, ?_⟩
      · simp
      · simp only [List.length_cons, List.length_append]
        omega
    · by_cases closes : ['|', '#'] <+: cs
      · obtain ⟨more, rfl⟩ := closes
        rw [List.cons_append, List.singleton_append, blockLength, Option.map_eq_some_iff] at taken
        obtain ⟨remaining, taken, rfl⟩ := taken
        exact ⟨['|', '#'], more, remaining, rfl, .close, taken, Nat.add_comm _ _⟩
      · cases cs with
        | nil => cases taken
        | cons c more =>
          rw [blockLength_char opens closes, Option.map_eq_some_iff] at taken
          obtain ⟨length, taken, rfl⟩ := taken
          obtain ⟨inner, rest, remaining, rfl, closed, remains, rfl⟩ :=
            ih _ (by simp) more taken rfl
          refine ⟨c :: inner, rest, remaining, rfl, .char ?_ ?_ closed, remains, ?_⟩
          · exact fun mark => opens (mark.trans (List.prefix_append (c :: inner) rest))
          · exact fun mark => closes (mark.trans (List.prefix_append (c :: inner) rest))
          · simp only [List.length_cons]
            omega

/-! ### Gaps -/

/-- A blank or a comment in front of `following`. A line comment ends before the end of its line. -/
inductive Skipped : List Char → List Char → Prop where
  | blank {c : Char} (blank : isBlank c = true) (following : List Char) : Skipped [c] following
  | line {body following : List Char} (inside : '\n' ∉ body)
    (ends : ∀ c ∈ following.head?, c = '\n') : Skipped (';' :: body) following
  | block {body : List Char} (closed : InBlock body) (following : List Char) :
    Skipped ('#' :: '|' :: body) following

/-- Any number of blanks and comments in front of `following`. -/
inductive Gap : List Char → List Char → Prop where
  | nil (following : List Char) : Gap [] following
  | cons {piece gap following : List Char} (first : Skipped piece (gap ++ following))
    (later : Gap gap following) : Gap (piece ++ gap) following

/-- Why scanning stops where `rest` begins, which is at `position`: the text is at its end, no
pattern fits, or a block comment is never closed. -/
inductive Stops (position : Nat) : List Char → Option Failure → Prop where
  | done : Stops position [] none
  | comma (more : List Char) :
    Stops position (',' :: more) (some (.malformedSource (.unexpectedChar position ',')))
  | openString {more : List Char}
    (unclosed : ∀ body rest, IsStringBody body → more ≠ body ++ '\x22' :: rest) :
    Stops position ('\x22' :: more) (some (.malformedSource (.unexpectedChar position '\x22')))
  | openBlock {more : List Char} (unclosed : ∀ body rest, InBlock body → more ≠ body ++ rest) :
    Stops position ('#' :: '|' :: more) (some (.malformedSource .unterminatedComment))

/-- What scanning finds where `c` stands at `position` and `rest` follows: a blank or a comment,
what the first pattern that fits takes, or a reason to stop. -/
inductive Cut (position : Nat) (c : Char) : List Char → Except SourceDefect Lexeme → Prop where
  | skip {run following : List Char} (skipped : Skipped (c :: run) following) :
    Cut position c (run ++ following) (.ok ⟨none, run.length⟩)
  | token {run following : List Char} {kind : TokenKind}
    (fits : firstMatch? (c :: run ++ following) = some (.token kind, following)) :
    Cut position c (run ++ following) (.ok ⟨some kind, run.length⟩)
  | stop {rest : List Char} {defect : SourceDefect}
    (stops : Stops position (c :: rest) (some (.malformedSource defect))) :
    Cut position c rest (.error defect)

namespace Cut

variable {position : Nat} {c : Char} {rest : List Char}

/-- A token of `length` more characters. -/
theorem of_drop {kind : TokenKind} {length : Nat} (short : length ≤ rest.length)
    (fits : firstMatch? (c :: rest) = some (.token kind, rest.drop length)) :
    Cut position c rest (.ok ⟨some kind, length⟩) := by
  have parts : rest.take length ++ rest.drop length = rest := List.take_append_drop length rest
  have cut : Cut position c (rest.take length ++ rest.drop length)
      (.ok ⟨some kind, (rest.take length).length⟩) := by
    apply token
    rw [List.cons_append, parts]
    exact fits
  rw [parts, List.length_take_of_le short] at cut
  exact cut

/-- A token that takes the longest run of a class. -/
theorem of_dropWhile {kind : TokenKind} {allowed : Char → Bool}
    (fits : firstMatch? (c :: rest) = some (.token kind, rest.dropWhile allowed)) :
    Cut position c rest (.ok ⟨some kind, (rest.takeWhile allowed).length⟩) := by
  apply of_drop (List.takeWhile_prefix allowed).length_le
  rw [drop_length_takeWhile]
  exact fits

theorem mark {kind : TokenKind}
    (listed : (c, kind) ∈ [('\x27', .quote), ('(', TokenKind.openList), (')', .closeList)]) :
    Cut position c rest (.ok ⟨some kind, 0⟩) :=
  of_drop (Nat.zero_le _) (firstMatch?_mark listed)

theorem blank (blank : isBlank c = true) : Cut position c rest (.ok ⟨none, 0⟩) :=
  @skip position c [] rest (.blank blank rest)

theorem comment : Cut position ';' rest (.ok ⟨none, (rest.takeWhile (· != '\n')).length⟩) := by
  have parts : rest.takeWhile (· != '\n') ++ rest.dropWhile (· != '\n') = rest :=
    List.takeWhile_append_dropWhile
  have cut : Cut position ';' (rest.takeWhile (· != '\n') ++ rest.dropWhile (· != '\n'))
      (.ok ⟨none, (rest.takeWhile (· != '\n')).length⟩) := by
    refine .skip (.line ?_ ?_)
    · intro inside
      have other := List.mem_takeWhile_imp inside
      simp at other
    · intro c head
      have stop := List.head?_dropWhile_not (· != '\n') rest
      rw [Option.mem_def.mp head] at stop
      simpa using stop
  rw [parts] at cut
  exact cut

theorem string : Cut position '\x22' rest
    (match stringLength rest with
    | some length => .ok ⟨some .string, length⟩
    | none => .error (.unexpectedChar position '\x22')) := by
  cases taken : stringLength rest with
  | some length =>
    apply of_drop _ (firstMatch?_string taken)
    obtain ⟨body, tail, rfl, -, rfl⟩ := exists_body_of_stringLength taken
    simp
  | none =>
    refine .stop (.openString ?_)
    rintro body tail closed rfl
    have length := closed.stringLength tail
    rw [taken] at length
    cases length

theorem block {text : List Char} : Cut position '#' ('|' :: text)
    (match blockLength 1 text with
    | some length => .ok ⟨none, length + 1⟩
    | none => .error .unterminatedComment) := by
  cases taken : blockLength 1 text with
  | some length =>
    obtain ⟨inner, tail, remaining, rfl, closed, none_left, rfl⟩ :=
      exists_inBlock_of_blockLength text taken
    rw [blockLength] at none_left
    cases none_left
    exact .skip (.block closed tail)
  | none =>
    refine .stop (.openBlock ?_)
    rintro body tail closed rfl
    have level := closed.blockLength 0 tail
    rw [taken, blockLength] at level
    cases level

theorem characterLength_le {name : List Char} {length : Nat}
    (taken : characterLength name = some length) : length ≤ name.length := by
  have run := (List.takeWhile_prefix (l := name) (!isDelimiter ·)).length_le
  unfold characterLength at taken
  split at taken
  · next cut =>
    cases taken
    rw [← cut]
    exact run
  · cases name with
    | nil => cases taken
    | cons c more =>
      split at taken <;> cases taken
      exact Nat.succ_le_succ (Nat.zero_le _)

theorem hash : Cut position '#' rest (afterHash rest) := by
  have plain : isSymbolChar '#' = true := by decide
  unfold afterHash
  split
  · exact block
  · next name =>
    split
    · next length taken =>
      exact of_drop (Nat.succ_le_succ (characterLength_le taken)) (firstMatch?_character taken)
    · next none_taken =>
      apply of_dropWhile
      apply firstMatch?_symbol plain (by simp) _ (first?_booleanPattern_backslash name)
      rw [first?_characterPattern]
      simp [none_taken]
  · next not_block not_character =>
    have no_block : ¬['#', '|'] <+: '#' :: rest := by
      rintro ⟨text, same⟩
      cases same
      exact not_block text rfl
    have no_mark : ¬['#', '\\'] <+: '#' :: rest := by
      rintro ⟨name, same⟩
      cases same
      exact not_character name rfl
    have no_character : characterPattern.first? ('#' :: rest) = none := by
      rw [first?_characterPattern, if_neg no_mark]
    dsimp only
    split
    · next named =>
      exact of_dropWhile
        (firstMatch?_boolean no_block no_character (List.contains_iff_mem.mp named))
    · next unnamed =>
      apply of_dropWhile
      apply firstMatch?_symbol plain no_block no_character
      rw [first?_booleanPattern, if_neg fun both => unnamed (List.contains_iff_mem.mpr both.2)]

end Cut

/-- The scanner finds what there is to be found. -/
theorem lexemeAt_cut (position : Nat) (c : Char) (rest : List Char) :
    Cut position c rest (lexemeAt position c rest) := by
  unfold lexemeAt
  split
  · next blank => exact .blank blank
  split
  · next same => exact same ▸ .comment
  split
  · next same => exact .mark (by simp [same])
  split
  · next same => exact .mark (by simp [same])
  split
  · next same => exact .mark (by simp [same])
  split
  · next same => exact same ▸ .string
  split
  · next same => exact same ▸ .hash
  split
  · next same => exact same ▸ .stop (.comma rest)
  · next not_blank not_comment not_quote not_open not_close not_string not_hash not_comma =>
    have plain : isSymbolChar c = true := by
      rw [isSymbolChar_iff]
      exact ⟨Bool.eq_false_iff.mpr not_blank, by simp [*]⟩
    have no_hash (word : List Char) : ¬('#' :: word) <+: c :: rest := by
      rw [List.cons_prefix_cons]
      exact fun both => not_hash both.1.symm
    apply Cut.of_dropWhile
    apply firstMatch?_symbol plain (no_hash _)
    · rw [first?_characterPattern, if_neg (no_hash _)]
    · rw [first?_booleanPattern, if_neg fun both => not_hash both.1]

end Lexeme

/-! ### Tokens and the gaps between them -/

namespace Token

open Lexeme (Gap Stops firstMatch?)

/-- The text of tokens with a gap in front of each. -/
def joined (parts : List (List Char × Token)) : List Char :=
  parts.flatMap fun (gap, token) => gap ++ token.text.toList

/-- The text is cut into tokens with a gap in front of each, a last gap and a rest. -/
inductive Tiling : List Char → List (List Char × Token) → List Char → List Char → Prop where
  | last {gap rest : List Char} (between : Gap gap rest) : Tiling (gap ++ rest) [] gap rest
  | token {gap text following last rest : List Char} {kind : TokenKind}
    {parts : List (List Char × Token)} (between : Gap gap (text ++ following))
    (fits : firstMatch? (text ++ following) = some (.token kind, following))
    (later : Tiling following parts last rest) :
    Tiling (gap ++ (text ++ following)) ((gap, ⟨kind, String.ofList text⟩) :: parts) last rest

theorem Tiling.text_eq {cs last rest : List Char} {parts : List (List Char × Token)}
    (tiling : Tiling cs parts last rest) : cs = joined parts ++ last ++ rest := by
  induction tiling with
  | last => rfl
  | token _ _ _ ih =>
    rw [ih]
    simp only [joined, List.flatMap_cons, String.toList_ofList, List.append_assoc]

/-- A blank or a comment in front of a text belongs to its first gap. -/
theorem Tiling.skip {piece cs last rest : List Char} {parts : List (List Char × Token)}
    (skipped : Lexeme.Skipped piece cs) (tiling : Tiling cs parts last rest) :
    ∃ parts' last', Tiling (piece ++ cs) parts' last' rest ∧ parts'.map (·.2) = parts.map (·.2) ∧
      (joined parts' ++ last').length = piece.length + (joined parts ++ last).length := by
  cases tiling with
  | last between =>
    refine ⟨[], piece ++ last, ?_, rfl, ?_⟩
    · rw [← List.append_assoc]
      exact .last (.cons skipped between)
    · simp [joined]
  | @token gap text following _ _ kind parts between fits later =>
    refine ⟨(piece ++ gap, ⟨kind, String.ofList text⟩) :: parts, last, ?_, rfl, ?_⟩
    · rw [← List.append_assoc]
      exact .token (.cons skipped between) fits later
    · simp [joined]

/-- What scanning yields. The induction is that of the scanner. -/
theorem scanFrom_tiles (position : Nat) (cs : List Char) :
    ∃ parts last rest, Tiling cs parts last rest ∧
      (scanFrom position cs).items = parts.map (·.2) ∧
      Stops (position + (joined parts ++ last).length) rest (scanFrom position cs).failure := by
  induction size : cs.length using Nat.strongRecOn generalizing position cs with
  | _ n ih =>
    subst size
    cases cs with
    | nil =>
      rw [scanFrom]
      exact ⟨[], [], [], .last (.nil []), rfl, .done⟩
    | cons c rest =>
      rw [scanFrom]
      have cut := Lexeme.lexemeAt_cut position c rest
      revert cut
      generalize Lexeme.lexemeAt position c rest = found
      intro cut
      cases cut with
      | stop stops => exact ⟨[], [], c :: rest, .last (.nil _), rfl, stops⟩
      | @skip run following skipped =>
        -- what is skipped goes in front of the next token, or of the end
        have shorter : following.length < (c :: (run ++ following)).length := by
          rw [List.length_cons, List.length_append]
          omega
        obtain ⟨parts, last, tail, tiling, items, stops⟩ :=
          ih following.length shorter (position + 1 + run.length) following rfl
        obtain ⟨parts', last', tiled, same, length⟩ := tiling.skip skipped
        have place : position + (joined parts' ++ last').length =
            position + 1 + run.length + (joined parts ++ last).length := by
          rw [length, List.length_cons]
          omega
        simp only [List.drop_left]
        exact ⟨parts', last', tail, tiled, items.trans same.symm, place ▸ stops⟩
      | @token run following kind fits =>
        have shorter : following.length < (c :: (run ++ following)).length := by
          rw [List.length_cons, List.length_append]
          omega
        obtain ⟨parts, last, tail, tiling, items, stops⟩ :=
          ih following.length shorter (position + 1 + run.length) following rfl
        let token : Token := ⟨kind, String.ofList (c :: run)⟩
        have place : position + (joined (([], token) :: parts) ++ last).length =
            position + 1 + run.length + (joined parts ++ last).length := by
          simp [joined, token]
          omega
        simp only [List.drop_left, List.take_left]
        exact ⟨([], token) :: parts, last, tail, .token (.nil _) fits tiling,
          congrArg (token :: ·) items, place ▸ stops⟩

/-- Scanning stops only where no token begins. -/
theorem not_token_of_stops {position : Nat} {rest following : List Char} {failure : Option Failure}
    (stops : Stops position rest failure) (kind : TokenKind) :
    firstMatch? rest ≠ some (.token kind, following) := by
  intro fits
  cases stops with
  | done =>
    obtain ⟨text, nonempty, same⟩ := Lexeme.exists_taken_of_firstMatch? fits
    exact nonempty (List.append_eq_nil_iff.mp same.symm).1
  | comma more =>
    rw [Lexeme.firstMatch?_comma] at fits
    cases fits
  | @openString more unclosed =>
    have never : Lexeme.stringLength more = none := by
      rw [Option.eq_none_iff_forall_ne_some]
      intro length taken
      obtain ⟨body, tail, same, closed, -⟩ := Lexeme.exists_body_of_stringLength taken
      exact unclosed body tail closed same
    rw [Lexeme.firstMatch?_openString never] at fits
    cases fits
  | openBlock unclosed =>
    rw [Lexeme.firstMatch?_block] at fits
    cases fits

/-- No character of a source text is lost, and scanning stops only where it must.

The text is the tokens that scanning yields, in their order, with gaps of blanks and comments
before, between and behind them, and a rest. Every token is what the first pattern that fits takes
at its place, so no comment is yielded. Scanning fails just if the rest is not empty. The rest then
begins with a comma, with the mark of a string that has no closing mark, or with a block comment
that is never closed, and the failure says which and where. No token begins there.

A pattern that fits takes some character. So there is no place at which something fits and yet
nothing is yielded. -/
theorem scan_lossless (source : String) :
    (∃ parts last rest,
      source.toList = joined parts ++ last ++ rest ∧
      (scan source).items = parts.map (·.2) ∧
      Tiling source.toList parts last rest ∧
      Stops (joined parts ++ last).length rest (scan source).failure ∧
      ∀ kind following, firstMatch? rest ≠ some (.token kind, following)) ∧
    ∀ cs found rest, firstMatch? cs = some (found, rest) →
      ∃ text, text ≠ [] ∧ cs = text ++ rest := by
  obtain ⟨parts, last, rest, tiling, items, stops⟩ := scanFrom_tiles 0 source.toList
  rw [Nat.zero_add] at stops
  refine ⟨⟨parts, last, rest, tiling.text_eq, items, tiling, stops, ?_⟩, ?_⟩
  · intro kind following
    exact not_token_of_stops stops kind
  · intro cs found rest fits
    exact Lexeme.exists_taken_of_firstMatch? fits

end Token

end ScopedLisp
