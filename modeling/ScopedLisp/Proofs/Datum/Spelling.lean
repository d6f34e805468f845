import ScopedLisp.Proofs.Datum.Printable
import ScopedLisp.Proofs.Text.Numeral
import ScopedLisp.Proofs.Token.Lexing

/-!
# The spelling of a datum

`spell` writes a datum by recursion on it, with a blank between two items and around a dot. The
spelling of a readable datum is cut into the tokens of the datum, whatever its atoms begin with and
whatever its strings hold, unless a bare mark of a character takes a closing parenthesis. Then more
lists are opened than closed.
-/

namespace ScopedLisp.Datum

/-- How a leaf is written. -/
def literal : Datum → String
  | .atom name => name
  | .integer value => Text.Numeral.decimal value
  | .boolean value => if value then "#t" else "#f"
  | .string text => Literal.ofText text
  | .character text => "#\\" ++ Literal.characterName text
  | .list _ | .dotted _ _ | .foreign _ => ""

/-- The kind of token that a leaf is written as. -/
def tokenKind : Datum → TokenKind
  | .boolean _ => .boolean
  | .string _ => .string
  | .character _ => .character
  | _ => .symbol

mutual

/-- The datum as text. -/
def spell : Datum → List Char
  | .list items => '(' :: spellItems items ++ [')']
  | .dotted items tail => '(' :: spellItems items ++ [' ', '.', ' '] ++ spell tail ++ [')']
  | leaf => leaf.literal.toList

/-- The items of a list with a blank between any two. -/
def spellItems : List Datum → List Char
  | [] => []
  | datum :: rest => spell datum ++ spellRest rest

/-- Items with a blank in front of each. -/
def spellRest : List Datum → List Char
  | [] => []
  | datum :: rest => ' ' :: spell datum ++ spellRest rest

end

mutual

/-- The tokens of the spelling. -/
def tokens : Datum → List Token
  | .list items => .opening :: tokensAll items ++ [.closing]
  | .dotted items tail =>
    .opening :: tokensAll items ++ .dot :: tokens tail ++ [.closing]
  | leaf => [⟨leaf.tokenKind, leaf.literal⟩]

def tokensAll : List Datum → List Token
  | [] => []
  | datum :: rest => tokens datum ++ tokensAll rest

end

section Leaves

variable {datum : Datum} (leaf : datum.isLeaf = true)
include leaf

theorem spell_of_isLeaf : datum.spell = datum.literal.toList := by
  cases datum with
  | list items => cases leaf
  | dotted items tail => cases leaf
  | _ => rfl

theorem tokens_of_isLeaf : datum.tokens = [⟨datum.tokenKind, datum.literal⟩] := by
  cases datum with
  | list items => cases leaf
  | dotted items tail => cases leaf
  | _ => rfl

end Leaves

/-! ### Lexemes of leaves -/

theorem IsAtomText.isSymbol {name : String} (atom : IsAtomText name) :
    Lexeme.IsSymbol name.toList where
  nonempty empty := atom.nonempty (String.toList_eq_nil_iff.mp empty)
  plain c member := Lexeme.isSymbolChar_iff.mpr (atom.plain c member)
  not_comment := atom.not_comment
  not_character := atom.not_character
  not_boolean := by
    have spelled : ∀ word ∈ Lexeme.booleanNames,
        String.ofList ('#' :: word) ∈ ["#t", "#f", "#true", "#false"] := by decide
    intro word member same
    have named := spelled word member
    rw [← same, String.ofList_toList] at named
    exact atom.not_boolean named

theorem isAtomText_of_isSymbol {name : String} (symbol : Lexeme.IsSymbol name.toList)
    (not_dot : name ≠ ".") (not_integer : Text.Numeral.isLiteral name.toList = false) :
    IsAtomText name where
  nonempty empty := symbol.nonempty (String.toList_eq_nil_iff.mpr empty)
  plain c member := Lexeme.isSymbolChar_iff.mp (symbol.plain c member)
  not_dot := not_dot
  not_integer := not_integer
  not_boolean named := by
    have spelled : ∀ name ∈ ["#t", "#f", "#true", "#false"],
        name.toList.head? = some '#' ∧ name.toList.tail ∈ Lexeme.booleanNames := by decide
    obtain ⟨first, listed⟩ := spelled name named
    obtain ⟨word, same⟩ := List.head?_eq_some_iff.mp first
    rw [same, List.tail_cons] at listed
    exact symbol.not_boolean word listed same
  not_comment := symbol.not_comment
  not_character := symbol.not_character

/-- A text of digits and hyphens. -/
theorem isSymbol_of_digits {cs : List Char} (nonempty : cs ≠ [])
    (digits : ∀ c ∈ cs, c = '-' ∨ ∃ digit < 10, c = digit.digitChar) : Lexeme.IsSymbol cs := by
  have plain : ∀ digit < 10,
      Lexeme.isSymbolChar digit.digitChar = true ∧ '#' ≠ digit.digitChar := by decide
  have all : ∀ c ∈ cs, Lexeme.isSymbolChar c = true ∧ '#' ≠ c := by
    intro c member
    obtain rfl | ⟨digit, small, rfl⟩ := digits c member
    · decide
    · exact plain digit small
  exact .of_hash_notMem nonempty (fun c member => (all c member).1)
    fun member => (all '#' member).2 rfl

theorem isSymbol_decimal (value : Int) : Lexeme.IsSymbol (Text.Numeral.decimal value).toList :=
  isSymbol_of_digits (Text.Numeral.decimal_ne_nil value) fun _ => Text.Numeral.mem_decimal

/-- A character is written by its name if it has one, else it is written itself. -/
theorem characterName_cases (text : String) :
    (∃ entry ∈ Literal.characterNames,
      entry.2 = text ∧ Literal.characterName text = entry.1) ∨
      Literal.characterName text = text ∧ ∀ entry ∈ Literal.characterNames, entry.2 ≠ text := by
  have listed : ∀ entry ∈ Literal.characterNames,
      Literal.characterNames.lookup entry.1 = some entry.2 := by decide
  cases printed : Literal.namedCharacters.lookup text with
  | some name =>
    refine .inl ⟨(name, text), ?_, rfl, ?_⟩
    · exact Literal.mem_of_lookup (Literal.lookup_characterNames_iff.mpr printed)
    · rw [Literal.characterName, printed, Option.getD_some]
  | none =>
    refine .inr ⟨by rw [Literal.characterName, printed, Option.getD_none], ?_⟩
    rintro entry member rfl
    cases printed.symm.trans (Literal.lookup_characterNames_iff.mp (listed entry member))

/-- What stands after `#\` is a name or a single character. -/
theorem characterName_isDelimited {text : String} (character : IsCharacterText text) :
    (Literal.characterName text).toList ≠ [] ∧
      ((∀ c ∈ (Literal.characterName text).toList, Lexeme.isDelimiter c = false) ∨
        ∃ c, (Literal.characterName text).toList = [c] ∧ Text.isBlank c = false) := by
  have names : ∀ entry ∈ Literal.characterNames,
      entry.1.toList ≠ [] ∧ entry.1.toList.all (!Lexeme.isDelimiter ·) = true := by decide
  obtain ⟨entry, member, -, written⟩ | ⟨written, unnamed⟩ := characterName_cases text
  · obtain ⟨nonempty, plain⟩ := names entry member
    rw [written]
    exact ⟨nonempty, .inl (by simpa using plain)⟩
  · obtain ⟨c, rfl, visible | named⟩ := character
    · rw [written, String.toList_singleton]
      exact ⟨List.cons_ne_nil _ _, .inr ⟨c, rfl, visible⟩⟩
    · have listed : [' ', '\n', '\t', '\r', '\x00'].all fun c =>
          Literal.characterNames.any (·.2 == String.singleton c) := by decide
      obtain ⟨entry, member, same⟩ := List.any_eq_true.mp (List.all_eq_true.mp listed c named)
      exact (unnamed entry member (beq_iff_eq.mp same)).elim

/-- A leaf with a literal yields its token where it is cut off. -/
theorem scansTo_literal {datum : Datum} (leaf : datum.isLeaf = true) (printable : datum.Printable)
    {rest : List Char} {listing : Listing Token} (delimited : Delimited rest)
    (follow : ScansTo rest listing) :
    ScansTo (datum.literal.toList ++ rest)
      (listing.prepend [⟨datum.tokenKind, datum.literal⟩]) := by
  cases datum with
  | list items => cases leaf
  | dotted items tail => cases leaf
  | atom name => exact follow.symbol printable.isSymbol delimited
  | integer value => exact follow.symbol (isSymbol_decimal value) delimited
  | boolean value =>
    cases value with
    | true => exact follow.token (Lexeme.lexemeAt_boolean (by decide) delimited)
    | false => exact follow.token (Lexeme.lexemeAt_boolean (by decide) delimited)
  | string text =>
    have lexeme := Lexeme.lexemeAt_string text.toList rest
    rw [literal, Literal.ofText, String.toList_ofList]
    exact follow.token lexeme
  | character text =>
    obtain ⟨nonempty, name⟩ := characterName_isDelimited printable
    have lexeme := Lexeme.lexemeAt_character nonempty name delimited
    have whole : ("#\\" ++ Literal.characterName text).toList =
        '#' :: '\\' :: (Literal.characterName text).toList := by
      rw [String.toList_append]
      rfl
    have token := follow.token lexeme
    rw [← whole, String.ofList_toList] at token
    exact token
  | foreign value => exact printable.elim

/-! ### Scanning -/

theorem isSymbol_dot : Lexeme.IsSymbol ".".toList :=
  .of_hash_notMem (by decide) (List.all_eq_true.mp (by decide)) (by decide)

/-- What stands behind a datum in a printed text: a closing parenthesis, or else a blank or
nothing. -/
def Behind : Bool → List Char → Prop
  | true, cs => cs.head? = some ')'
  | false, cs => ∀ c ∈ cs.head?, c = ' '

theorem Behind.delimited {closed : Bool} {cs : List Char} (behind : Behind closed cs) :
    Delimited cs := by
  intro c first
  cases closed with
  | true =>
    cases first.symm.trans behind
    decide
  | false =>
    cases behind c first
    decide

theorem Behind.spellRest {closed : Bool} {rest : List Char} (behind : Behind closed rest)
    (items : List Datum) : Behind (closed && items.isEmpty) (Datum.spellRest items ++ rest) := by
  cases items with
  | nil =>
    rw [List.isEmpty_nil, Bool.and_true]
    exact behind
  | cons datum others =>
    rw [List.isEmpty_cons, Bool.and_false]
    rintro _ ⟨⟩
    rfl

/-- How many more lists are opened than closed. -/
def nesting (tokens : List Token) : Int := tokens.count .opening - tokens.count .closing

theorem nesting_append (tokens more : List Token) :
    nesting (tokens ++ more) = nesting tokens + nesting more := by
  simp only [nesting, List.count_append]
  omega

theorem nesting_cons (token : Token) (more : List Token) :
    nesting (token :: more) = nesting [token] + nesting more :=
  nesting_append [token] more

theorem nesting_word {token : Token} (not_open : token.kind ≠ .openList)
    (not_close : token.kind ≠ .closeList) : nesting [token] = 0 := by
  have opening : token ≠ .opening := fun same => not_open (same ▸ rfl)
  have closing : token ≠ .closing := fun same => not_close (same ▸ rfl)
  rw [nesting, List.count_singleton, List.count_singleton, if_neg (by simpa using opening),
    if_neg (by simpa using closing)]
  rfl

mutual

theorem nesting_tokens (datum : Datum) : nesting datum.tokens = 0 := by
  match datum with
  | .list items =>
    rw [tokens, nesting_append, nesting_cons, nesting_tokensAll items]
    rfl
  | .dotted items tail =>
    rw [tokens, nesting_append, List.cons_append, nesting_cons, nesting_append, nesting_cons .dot,
      nesting_tokensAll items, nesting_tokens tail]
    rfl
  | .atom _ | .integer _ | .boolean _ | .string _ | .character _ | .foreign _ =>
    exact nesting_word nofun nofun

theorem nesting_tokensAll (items : List Datum) : nesting (tokensAll items) = 0 := by
  match items with
  | [] => rfl
  | datum :: rest =>
    rw [tokensAll, nesting_append, nesting_tokens datum, nesting_tokensAll rest]
    rfl

end

/-- The text `cs` ends in one that yields `listing`. It yields the tokens in front of that listing
if `whole` holds; otherwise a parenthesis that should close a list is lost. -/
def Finds (whole : Prop) (tokens : List Token) (cs : List Char) (listing : Listing Token) : Prop :=
  ∃ found, ScansTo cs found ∧ (whole → found = listing.prepend tokens) ∧
    (¬whole → nesting listing.items < nesting found.items)

namespace Finds

variable {whole whole' : Prop} {tokens tokens' : List Token} {cs cs' : List Char}
  {listing : Listing Token}

theorem of_scansTo (holds : whole) (scanned : ScansTo cs (listing.prepend tokens)) :
    Finds whole tokens cs listing :=
  ⟨_, scanned, fun _ => rfl, fun broken => absurd holds broken⟩

/-- A parenthesis that is lost in either part is lost in the whole. -/
theorem append (later : Finds whole' tokens' cs' listing) (balanced : nesting tokens = 0)
    (balanced' : nesting tokens' = 0)
    (first : ∀ found, ScansTo cs' found → Finds whole tokens cs found) :
    Finds (whole ∧ whole') (tokens ++ tokens') cs listing := by
  obtain ⟨mid, scanned', intact', lost'⟩ := later
  obtain ⟨found, scanned, intact, lost⟩ := first mid scanned'
  refine ⟨found, scanned, fun both => ?_, fun broken => ?_⟩
  · rw [intact both.1, intact' both.2, Listing.prepend_append]
  · by_cases holds : whole
    · have lost := lost' fun holds' => broken ⟨holds, holds'⟩
      rw [intact holds, Listing.prepend, nesting_append]
      omega
    · have lost := lost holds
      by_cases holds' : whole'
      · rw [intact' holds', Listing.prepend, nesting_append] at lost
        omega
      · have := lost' holds'
        omega

theorem blank (finds : Finds whole tokens cs listing) : Finds whole tokens (' ' :: cs) listing := by
  obtain ⟨found, scanned, intact, lost⟩ := finds
  exact ⟨found, scanned.blank, intact, lost⟩

theorem dot (finds : Finds whole tokens (' ' :: cs) listing) :
    Finds whole (.dot :: tokens) ('.' :: ' ' :: cs) listing := by
  obtain ⟨found, scanned, intact, lost⟩ := finds
  have spaced := delimited_cons (c := ' ') (by decide) cs
  refine ⟨_, scanned.symbol isSymbol_dot spaced, fun holds => ?_, fun broken => ?_⟩
  · rw [intact holds]
    rfl
  · have lost := lost broken
    rw [Listing.prepend, nesting_append]
    have balanced : nesting [⟨.symbol, "."⟩] = 0 := by decide
    omega

/-- Parentheses around what is found. -/
theorem enclose (finds : Finds whole tokens cs (listing.prepend [.closing])) :
    Finds whole (.opening :: tokens ++ [.closing]) ('(' :: cs) listing := by
  obtain ⟨found, scanned, intact, lost⟩ := finds
  refine ⟨_, scanned.openList, fun holds => ?_, fun broken => ?_⟩
  · rw [intact holds, ← Listing.prepend_append, ← Listing.prepend_append]
    rfl
  · have lost := lost broken
    rw [Listing.prepend, nesting_append] at lost ⊢
    have opened : nesting [.opening] = 1 := by decide
    have closed : nesting [.closing] = -1 := by decide
    omega

end Finds

/-- A closing parenthesis behind a bare mark is taken for the character that the mark
introduces. -/
theorem finds_closed_bareMark {rest : List Char} {listing : Listing Token}
    (behind : Behind true rest) (follow : ScansTo rest listing) :
    Finds False [⟨.symbol, "#\\"⟩] ('#' :: '\\' :: rest) listing := by
  obtain ⟨more, rfl⟩ : ∃ more, rest = ')' :: more := List.head?_eq_some_iff.mp behind
  -- behind the parenthesis both readings go on alike, from the same place
  have closes (position : Nat) :
      listing = (Token.scanFrom (position + 1) more).prepend [.closing] := by
    rw [← follow position, Token.scanFrom]
    rfl
  have same (position : Nat) :
      Token.scanFrom (position + 1) more = { listing with items := listing.items.tail } := by
    rw [closes position]
    rfl
  refine ⟨Listing.prepend [⟨.character, "#\\)"⟩] { listing with items := listing.items.tail },
    fun position => ?_, False.elim, fun _ => ?_⟩
  · rw [Token.scanFrom, Lexeme.lexemeAt_markedClosing]
    exact congrArg (Listing.prepend [⟨.character, "#\\)"⟩]) (same (position + 2))
  · have items : listing.items = .closing :: listing.items.tail := by
      rw [closes 0]
      rfl
    have closed : nesting [.closing] = -1 := by decide
    have word : nesting [⟨.character, "#\\)"⟩] = 0 := by decide
    rw [items, nesting_cons, Listing.prepend, nesting_append]
    dsimp only
    rw [List.tail_cons]
    omega

theorem finds_literal {datum : Datum} (leaf : datum.isLeaf = true) (readable : datum.Readable)
    {closed : Bool} {rest : List Char} {listing : Listing Token} (behind : Behind closed rest)
    (follow : ScansTo rest listing) :
    Finds (closed = true → datum ≠ bareMark) [⟨datum.tokenKind, datum.literal⟩]
      (datum.literal.toList ++ rest) listing := by
  by_cases bare : datum = bareMark
  · subst bare
    cases closed with
    | true =>
      have lost := finds_closed_bareMark behind follow
      have always : ¬(true = true → bareMark ≠ bareMark) := fun other => other rfl rfl
      rw [eq_false always]
      exact lost
    | false =>
      have blank : ∀ c ∈ rest.head?, Text.isBlank c = true := by
        intro c first
        rw [behind c first]
        decide
      exact .of_scansTo nofun (follow.token (Lexeme.lexemeAt_bareMark blank))
  · have printable : datum.Printable := by
      cases datum with
      | list items => cases leaf
      | dotted items tail => cases leaf
      | _ => exact readable.resolve_right bare
    exact .of_scansTo (fun _ => bare) (scansTo_literal leaf printable behind.delimited follow)

mutual

/-- The spelling of a datum yields its tokens, provided that the datum is separated from what stands
behind it. The induction is on the datum, and within a list from the right. -/
theorem finds_spell {datum : Datum} (readable : datum.Readable) {closed : Bool} {rest : List Char}
    {listing : Listing Token} (behind : Behind closed rest) (follow : ScansTo rest listing) :
    Finds (datum.Separated closed) datum.tokens (datum.spell ++ rest) listing := by
  match datum with
  | .list items =>
    have closing : Behind true (')' :: rest) := rfl
    have inner := finds_spellItems readable closing follow.closeList
    rw [spell, tokens, List.append_assoc]
    exact inner.enclose
  | .dotted items tail =>
    have closing : Behind true (')' :: rest) := rfl
    have last := finds_spell readable.2 closing follow.closeList
    have spaced : Behind false (' ' :: '.' :: ' ' :: (tail.spell ++ ')' :: rest)) := by
      rintro _ ⟨⟩
      rfl
    have balanced : nesting (.dot :: tail.tokens) = 0 := by
      rw [nesting_cons, nesting_tokens]
      rfl
    have inner := last.blank.dot.blank.append (nesting_tokensAll items) balanced
      fun _ scanned => finds_spellItems readable.1 spaced scanned
    simpa only [Separated, spell, tokens, List.append_assoc, List.cons_append, List.nil_append]
      using inner.enclose
  | .atom _ | .integer _ | .boolean _ | .string _ | .character _ | .foreign _ =>
    exact finds_literal rfl readable behind follow

/-- The items of a list. -/
theorem finds_spellItems {items : List Datum} (readable : AllReadable items) {closed : Bool}
    {rest : List Char} {listing : Listing Token} (behind : Behind closed rest)
    (follow : ScansTo rest listing) :
    Finds (AllSeparated closed items) (tokensAll items) (spellItems items ++ rest) listing := by
  match items with
  | [] => exact .of_scansTo trivial follow
  | datum :: others =>
    have later := finds_spellRest readable.2 behind follow
    rw [spellItems, List.append_assoc]
    exact later.append (nesting_tokens datum) (nesting_tokensAll others)
      fun _ scanned => finds_spell readable.1 (behind.spellRest others) scanned

theorem finds_spellRest {items : List Datum} (readable : AllReadable items) {closed : Bool}
    {rest : List Char} {listing : Listing Token} (behind : Behind closed rest)
    (follow : ScansTo rest listing) :
    Finds (AllSeparated closed items) (tokensAll items) (spellRest items ++ rest) listing := by
  match items with
  | [] => exact .of_scansTo trivial follow
  | datum :: others =>
    have later := finds_spellRest readable.2 behind follow
    have first := later.append (nesting_tokens datum) (nesting_tokensAll others)
      fun _ scanned => finds_spell readable.1 (behind.spellRest others) scanned
    rw [spellRest, List.cons_append, List.cons_append, List.append_assoc]
    exact first.blank

end

end ScopedLisp.Datum
