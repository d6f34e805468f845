import ScopedLisp.Literal
import ScopedLisp.Token.Scan

/-!
# Where lexemes end

A run of characters is one lexeme if it is cut off by what follows it. What follows a literal in
a printed text is the end of the text, a blank or a closing parenthesis.
-/

namespace ScopedLisp

open Text (isBlank)

/-- The text is at its end or goes on with a delimiter. -/
def Delimited (cs : List Char) : Prop := ∀ c ∈ cs.head?, Lexeme.isDelimiter c = true

theorem delimited_cons {c : Char} (delimiter : Lexeme.isDelimiter c = true) (cs : List Char) :
    Delimited (c :: cs) := by
  rintro _ ⟨⟩
  exact delimiter

namespace Lexeme

/-- A class without delimiters takes exactly the run in front of one. -/
theorem takeWhile_append_delimited {p : Char → Bool}
    (inside : ∀ c, p c = true → isDelimiter c = false) {run rest : List Char}
    (all : ∀ c ∈ run, p c = true) (delimited : Delimited rest) :
    (run ++ rest).takeWhile p = run := by
  rw [List.takeWhile_append_of_pos all]
  cases rest with
  | nil => rw [List.takeWhile_nil, List.append_nil]
  | cons c more =>
    have stop : ¬p c = true := by
      intro member
      have := inside c member
      rw [delimited c rfl] at this
      cases this
    rw [List.takeWhile_cons_of_neg stop, List.append_nil]

theorem isSymbolChar_iff {c : Char} :
    isSymbolChar c = true ↔ isBlank c = false ∧ c ∉ ['(', ')', '\x27', '\x22', ',', ';'] := by
  simp only [isSymbolChar, isDelimiter, List.contains_eq_mem, Bool.and_eq_true,
    Bool.not_eq_true', Bool.or_eq_false_iff, decide_eq_false_iff_not, bne_iff_ne, List.mem_cons,
    List.not_mem_nil, or_false, not_or]
  grind

theorem isDelimiter_of_isSymbolChar {c : Char} (symbolic : isSymbolChar c = true) :
    isDelimiter c = false := by
  simp only [isSymbolChar, Bool.and_eq_true, Bool.not_eq_true'] at symbolic
  exact symbolic.1

theorem takeWhile_isSymbolChar {run rest : List Char} (all : ∀ c ∈ run, isSymbolChar c = true)
    (delimited : Delimited rest) : (run ++ rest).takeWhile isSymbolChar = run :=
  takeWhile_append_delimited (fun _ => isDelimiter_of_isSymbolChar) all delimited

theorem takeWhile_not_isDelimiter {run rest : List Char}
    (all : ∀ c ∈ run, isDelimiter c = false) (delimited : Delimited rest) :
    (run ++ rest).takeWhile (!isDelimiter ·) = run :=
  takeWhile_append_delimited (fun _ inside => by simpa using inside)
    (fun c member => by rw [all c member]; rfl) delimited

/-- No character of the rest is taken for one of the run. -/
theorem exists_run_of_append {c : Char} {run rest more : List Char}
    (inside : isDelimiter c = false) (delimited : Delimited rest)
    (same : run ++ rest = c :: more) : ∃ others, run = c :: others := by
  cases run with
  | nil =>
    subst same
    have := delimited c rfl
    rw [inside] at this
    cases this
  | cons first others =>
    cases same
    exact ⟨others, rfl⟩

/-! ### Symbols -/

/-- The characters are cut off as a symbol where a delimiter follows. -/
structure IsSymbol (cs : List Char) : Prop where
  nonempty : cs ≠ []
  plain : ∀ c ∈ cs, isSymbolChar c = true
  not_comment : ¬['#', '|'] <+: cs
  not_character : ¬['#', '\\'] <+: cs
  not_boolean : ∀ name ∈ booleanNames, cs ≠ '#' :: name

theorem IsSymbol.of_ne_hash {c : Char} {run : List Char} (other : c ≠ '#')
    (plain : ∀ d ∈ c :: run, isSymbolChar d = true) : IsSymbol (c :: run) where
  nonempty := List.cons_ne_nil _ _
  plain := plain
  not_comment begins := other (List.cons_prefix_cons.mp begins).1.symm
  not_character begins := other (List.cons_prefix_cons.mp begins).1.symm
  not_boolean _ _ same := other (List.cons.inj same).1

theorem IsSymbol.of_hash_notMem {cs : List Char} (nonempty : cs ≠ [])
    (plain : ∀ c ∈ cs, isSymbolChar c = true) (no_hash : '#' ∉ cs) : IsSymbol cs := by
  obtain ⟨c, run, rfl⟩ := List.exists_cons_of_ne_nil nonempty
  exact .of_ne_hash (fun same => no_hash (same ▸ List.mem_cons_self)) plain

theorem afterHash_symbol {run rest : List Char} (symbol : IsSymbol ('#' :: run))
    (delimited : Delimited rest) :
    afterHash (run ++ rest) = .ok ⟨some .symbol, run.length⟩ := by
  have all : ∀ c ∈ run, isSymbolChar c = true := fun c member =>
    symbol.plain c (List.mem_cons_of_mem _ member)
  have cut := takeWhile_isSymbolChar all delimited
  have name_cut := takeWhile_not_isDelimiter
    (fun c member => isDelimiter_of_isSymbolChar (all c member)) delimited
  have other : ¬booleanNames.contains run = true := fun named =>
    symbol.not_boolean run (List.contains_iff_mem.mp named) rfl
  unfold afterHash
  -- a mark after `#` would have to be the run's own, since what follows begins with a delimiter
  split
  · next comment same =>
    obtain ⟨others, rfl⟩ := exists_run_of_append (by decide) delimited same
    exact (symbol.not_comment (List.prefix_append ['#', '|'] others)).elim
  · next name same =>
    obtain ⟨others, rfl⟩ := exists_run_of_append (by decide) delimited same
    exact (symbol.not_character (List.prefix_append ['#', '\\'] others)).elim
  · rw [name_cut, if_neg other, cut]

theorem lexemeAt_symbol {c : Char} {run rest : List Char} (symbol : IsSymbol (c :: run))
    (delimited : Delimited rest) (position : Nat) :
    lexemeAt position c (run ++ rest) = .ok ⟨some .symbol, run.length⟩ := by
  obtain ⟨not_blank, not_mark⟩ := isSymbolChar_iff.mp (symbol.plain c List.mem_cons_self)
  simp only [List.mem_cons, List.not_mem_nil, or_false, not_or] at not_mark
  obtain ⟨not_open, not_close, not_quote, not_string, not_comma, not_comment⟩ := not_mark
  have cut := takeWhile_isSymbolChar
    (fun c member => symbol.plain c (List.mem_cons_of_mem _ member)) delimited
  rw [lexemeAt, if_neg (by rw [not_blank]; decide), if_neg not_comment, if_neg not_quote,
    if_neg not_open, if_neg not_close, if_neg not_string]
  by_cases hash : c = '#'
  · subst hash
    exact afterHash_symbol symbol delimited
  · rw [if_neg hash, if_neg not_comma, cut]

/-! ### Booleans -/

theorem lexemeAt_boolean {name rest : List Char} (named : name ∈ booleanNames)
    (delimited : Delimited rest) (position : Nat) :
    lexemeAt position '#' (name ++ rest) = .ok ⟨some .boolean, name.length⟩ := by
  have heads : ∀ name ∈ booleanNames, name.head? ≠ some '|' ∧ name.head? ≠ some '\\' := by decide
  have plain : ∀ name ∈ booleanNames, name.all (!isDelimiter ·) = true := by decide
  have inside : ∀ c ∈ name, isDelimiter c = false := by simpa using plain name named
  have cut := takeWhile_not_isDelimiter inside delimited
  change afterHash (name ++ rest) = _
  unfold afterHash
  split
  · next comment same =>
    obtain ⟨others, rfl⟩ := exists_run_of_append (by decide) delimited same
    exact ((heads _ named).1 rfl).elim
  · next other same =>
    obtain ⟨others, rfl⟩ := exists_run_of_append (by decide) delimited same
    exact ((heads _ named).2 rfl).elim
  · rw [cut, if_pos (List.contains_iff_mem.mpr named)]

/-! ### Strings -/

theorem stringLength_escapeChar (c : Char) (rest : List Char) :
    stringLength (Literal.escapeChar c ++ rest) =
      (stringLength rest).map (· + (Literal.escapeChar c).length) := by
  obtain ⟨letter, -, written⟩ | ⟨not_mark, not_backslash, written⟩ := Literal.escapeChar_cases c
  · rw [written]
    rfl
  · rw [written, List.singleton_append, stringLength]
    · rfl
    · exact not_mark
    · rintro _ _ rfl
      exact absurd rfl not_backslash

/-- A string literal ends at its own closing mark, whatever its text is and whatever follows. -/
theorem stringLength_escape (cs rest : List Char) :
    stringLength (Literal.escape cs ++ '\x22' :: rest) = some ((Literal.escape cs).length + 1) := by
  induction cs with
  | nil => rfl
  | cons c more ih =>
    rw [Literal.escape, List.flatMap_cons, List.append_assoc, stringLength_escapeChar,
      ← Literal.escape, ih, List.length_append, Option.map_some]
    exact congrArg some (by omega)

theorem lexemeAt_string (cs rest : List Char) (position : Nat) :
    lexemeAt position '\x22' (Literal.escape cs ++ ['\x22'] ++ rest) =
      .ok ⟨some .string, (Literal.escape cs ++ ['\x22']).length⟩ := by
  rw [List.append_assoc, List.singleton_append, List.length_append, List.length_singleton]
  unfold lexemeAt
  rw [stringLength_escape]
  rfl

/-! ### Characters -/

/-- What stands after `#\` is cut off where a delimiter follows if it is one character, delimiters
included, or holds no delimiter. -/
theorem characterLength_append {cs rest : List Char} (nonempty : cs ≠ [])
    (name : (∀ c ∈ cs, isDelimiter c = false) ∨ ∃ c, cs = [c] ∧ isBlank c = false)
    (delimited : Delimited rest) : characterLength (cs ++ rest) = some cs.length := by
  unfold characterLength
  by_cases inside : ∀ c ∈ cs, isDelimiter c = false
  · rw [takeWhile_not_isDelimiter inside delimited]
    obtain ⟨c, run, rfl⟩ := List.exists_cons_of_ne_nil nonempty
    rfl
  · obtain ⟨c, rfl, visible⟩ := name.resolve_left inside
    have delimiter : isDelimiter c = true := by simpa using inside
    rw [List.singleton_append, List.takeWhile_cons_of_neg (by simp [delimiter])]
    change (if isBlank c = true then none else some 1) = _
    rw [visible]
    rfl

theorem lexemeAt_character {cs rest : List Char} (nonempty : cs ≠ [])
    (name : (∀ c ∈ cs, isDelimiter c = false) ∨ ∃ c, cs = [c] ∧ isBlank c = false)
    (delimited : Delimited rest) (position : Nat) :
    lexemeAt position '#' ('\\' :: cs ++ rest) =
      .ok ⟨some .character, ('\\' :: cs).length⟩ := by
  change afterHash ('\\' :: (cs ++ rest)) = _
  simp only [afterHash, characterLength_append nonempty name delimited, List.length_cons]

/-- A blank is no character of a literal. -/
theorem characterLength_of_blank {rest : List Char} (blank : ∀ c ∈ rest.head?, isBlank c = true) :
    characterLength rest = none := by
  cases rest with
  | nil => rfl
  | cons c more =>
    have blank := blank c rfl
    have delimiter : isDelimiter c = true := by rw [isDelimiter, blank, Bool.true_or]
    rw [characterLength, List.takeWhile_cons_of_neg (by simp [delimiter])]
    simp [blank]

/-- A mark that introduces no character is a symbol by itself. -/
theorem takeWhile_of_characterLength_none {name : List Char} (none : characterLength name = none) :
    ('\\' :: name).takeWhile isSymbolChar = ['\\'] := by
  rw [List.takeWhile_cons_of_pos (by decide)]
  cases name with
  | nil => rfl
  | cons c rest =>
    have delimiter : ¬isSymbolChar c = true := by
      intro symbolic
      have inside := isDelimiter_of_isSymbolChar symbolic
      rw [characterLength, List.takeWhile_cons_of_pos (by rw [inside]; rfl)] at none
      cases none
    rw [List.takeWhile_cons_of_neg delimiter]

/-- The mark of a character is a symbol where nothing but a blank stands behind it. -/
theorem lexemeAt_bareMark {rest : List Char} (blank : ∀ c ∈ rest.head?, isBlank c = true)
    (position : Nat) : lexemeAt position '#' ('\\' :: rest) = .ok ⟨some .symbol, 1⟩ := by
  have no_character := characterLength_of_blank blank
  change afterHash ('\\' :: rest) = _
  simp only [afterHash, no_character, takeWhile_of_characterLength_none no_character]
  rfl

/-- The mark of a character takes a parenthesis behind it. -/
theorem lexemeAt_markedClosing (rest : List Char) (position : Nat) :
    lexemeAt position '#' ('\\' :: ')' :: rest) = .ok ⟨some .character, 2⟩ := by
  change afterHash ('\\' :: ')' :: rest) = _
  rfl

end Lexeme

/-! ### Scanning -/

/-- The parenthesis that opens a list. -/
def Token.opening : Token := ⟨.openList, "("⟩

/-- The parenthesis that closes a list. -/
def Token.closing : Token := ⟨.closeList, ")"⟩

/-- The tokens in front of a listing. -/
def Listing.prepend {α : Type} (items : List α) (rest : Listing α) : Listing α :=
  { rest with items := items ++ rest.items }

theorem Listing.prepend_append {α : Type} (items more : List α) (rest : Listing α) :
    rest.prepend (items ++ more) = (rest.prepend more).prepend items := by
  simp only [prepend, List.append_assoc]

/-- The text yields the listing wherever it stands. -/
def ScansTo (cs : List Char) (listing : Listing Token) : Prop :=
  ∀ position, Token.scanFrom position cs = listing

namespace ScansTo

variable {cs : List Char} {listing : Listing Token}

theorem nil : ScansTo [] .empty := by
  intro position
  rw [Token.scanFrom]

/-- A lexeme that yields a token. -/
theorem token {kind : TokenKind} {c : Char} {run : List Char}
    (lexeme : ∀ position, Lexeme.lexemeAt position c (run ++ cs) = .ok ⟨some kind, run.length⟩)
    (follow : ScansTo cs listing) :
    ScansTo (c :: run ++ cs) (listing.prepend [⟨kind, String.ofList (c :: run)⟩]) := by
  intro position
  rw [List.cons_append, Token.scanFrom, lexeme]
  simp only [List.drop_left, List.take_left]
  rw [follow]
  rfl

/-- A text that is a symbol wherever it is delimited. -/
theorem symbol {text : String} (symbol : Lexeme.IsSymbol text.toList) (delimited : Delimited cs)
    (follow : ScansTo cs listing) :
    ScansTo (text.toList ++ cs) (listing.prepend [⟨.symbol, text⟩]) := by
  obtain ⟨c, run, same⟩ := List.exists_cons_of_ne_nil symbol.nonempty
  have whole : String.ofList (c :: run) = text := by rw [← same, String.ofList_toList]
  rw [same] at symbol ⊢
  rw [← whole]
  exact token (Lexeme.lexemeAt_symbol symbol delimited) follow

theorem blank (follow : ScansTo cs listing) : ScansTo (' ' :: cs) listing := by
  intro position
  rw [Token.scanFrom]
  exact follow _

theorem openList (follow : ScansTo cs listing) :
    ScansTo ('(' :: cs) (listing.prepend [.opening]) :=
  @token cs listing _ _ [] (fun _ => rfl) follow

theorem closeList (follow : ScansTo cs listing) :
    ScansTo (')' :: cs) (listing.prepend [.closing]) :=
  @token cs listing _ _ [] (fun _ => rfl) follow

end ScansTo

end ScopedLisp
