import ScopedLisp.Proofs.Datum.Recognition
import ScopedLisp.Proofs.Datum.Spelling
import ScopedLisp.Proofs.Store.Rendering

/-!
# Printing and reading

A printable datum that is placed in a session, printed and read again is the same datum with its
tails merged. The reader may run out of stack on the way, and does not if it has room for as many
nested calls as the datum is deep.
-/

namespace ScopedLisp

namespace Reader

open Datum

/-! ### Leaves -/

theorem symbolDatum_atom {name : String} (atom : IsAtomText name) :
    symbolDatum name = .ok (.atom name) := by
  rw [symbolDatum, if_neg atom.not_dot, if_neg (by rw [atom.not_integer]; decide)]

theorem symbolDatum_decimal {value : Int} (short : value.natAbs.repr.length ≤ Text.digitLimit) :
    symbolDatum (Text.Numeral.decimal value) = .ok (.integer value) := by
  have literal := Text.Numeral.isLiteral_decimal value
  have not_dot : Text.Numeral.decimal value ≠ "." := by
    intro same
    rw [same] at literal
    exact absurd literal (by decide)
  rw [symbolDatum, if_neg not_dot, if_pos literal]
  simp only [Text.Numeral.ofLiteral_decimal short]

theorem characterDatum_character {text : String} (character : IsCharacterText text) :
    characterDatum ("#\\" ++ Literal.characterName text) = .ok (.character text) := by
  have rest : ∀ name : String, String.ofList (("#\\" ++ name).toList.drop 2) = name := by
    intro name
    rw [String.toList_append]
    exact String.ofList_toList
  have names : ∀ entry ∈ Literal.characterNames,
      entry.1.length ≠ 1 ∧ Literal.characterOfName? entry.1 = some entry.2 := by decide
  obtain ⟨entry, member, rfl, written⟩ | ⟨written, -⟩ := characterName_cases text
  · obtain ⟨long, known⟩ := names entry member
    simp only [characterDatum, written, rest, known]
    rw [if_neg long]
  · obtain ⟨c, rfl, -⟩ := character
    simp only [characterDatum, written, rest]
    rw [if_pos String.length_singleton]

theorem stringDatum_string (text : String) :
    stringDatum (Literal.ofText text) = .ok (.string text) := by
  have inside : ((Literal.ofText text).toList.drop 1).dropLast = Literal.escape text.toList := by
    rw [Literal.ofText, String.toList_ofList]
    exact List.dropLast_concat
  rw [stringDatum, inside, Literal.unescape_escape]
  simp only [String.ofList_toList]

theorem wordDatum_literal {datum : Datum} (leaf : datum.isLeaf = true)
    (readable : datum.Readable) :
    wordDatum ⟨datum.tokenKind, datum.literal⟩ = some (.ok datum) := by
  by_cases bare : datum = bareMark
  · subst bare
    rfl
  cases datum with
  | list items => cases leaf
  | dotted items tail => cases leaf
  | atom name => exact congrArg some (symbolDatum_atom (readable.resolve_right bare))
  | integer value => exact congrArg some (symbolDatum_decimal (readable.resolve_right bare))
  | boolean value => cases value <;> rfl
  | string text => exact congrArg some (stringDatum_string text)
  | character text =>
    exact congrArg some (characterDatum_character (readable.resolve_right bare))
  | foreign value => exact (readable.resolve_right bare).elim

/-! ### Sources -/

theorem finds_source {datum : Datum} (readable : datum.Readable) :
    ∃ found, TokenStream.ofSource (String.ofList datum.spell) = found ∧
      (datum.Separated false → found = ⟨datum.tokens, none⟩) ∧
      (¬datum.Separated false → 0 < nesting found.items) := by
  have behind : Behind false [] := nofun
  obtain ⟨found, scanned, intact, lost⟩ := finds_spell readable behind .nil
  refine ⟨found, ?_, fun separated => ?_, lost⟩
  · rw [TokenStream.ofSource, Token.scan, String.toList_ofList, ← scanned 0, List.append_nil]
  · rw [intact separated, Listing.prepend, Listing.empty, List.append_nil]

theorem ofSource_spell {datum : Datum} (readable : datum.Readable)
    (separated : datum.Separated false) :
    TokenStream.ofSource (String.ofList datum.spell) = ⟨datum.tokens, none⟩ := by
  obtain ⟨found, scanned, intact, -⟩ := finds_source readable
  rw [scanned, intact separated]

/-- The token of a leaf is a lexeme. -/
theorem isLexeme_of_isLeaf {datum : Datum} (leaf : datum.isLeaf = true)
    (readable : datum.Readable) : Token.IsLexeme ⟨datum.tokenKind, datum.literal⟩ := by
  have separated : datum.Separated false := by
    cases datum with
    | list items => cases leaf
    | dotted items tail => cases leaf
    | _ => exact nofun
  have scanned : Token.scan (String.ofList datum.spell) = ⟨datum.tokens, none⟩ :=
    ofSource_spell readable separated
  apply Token.isLexeme_of_mem_scan
  rw [scanned, tokens_of_isLeaf leaf]
  exact List.mem_singleton.mpr rfl

mutual

/-- The tokens of a merged datum denote it. -/
theorem derives_tokens {datum : Datum} (readable : datum.Readable) (merged : datum.IsMerged) :
    Derives datum.tokens datum := by
  match datum with
  | .list items => exact .list (derivesAll_tokens readable merged)
  | .dotted items tail =>
    obtain ⟨some_items, all_merged, leaf⟩ := merged
    simp only [tokens, List.cons_append, List.append_assoc]
    exact .dotted (derivesAll_tokens readable.1 all_merged) some_items
      (derives_tokens readable.2 (isMerged_of_isLeaf leaf))
  | .atom _ | .integer _ | .boolean _ | .string _ | .character _ | .foreign _ =>
    exact .word (denotes_of_wordDatum (isLexeme_of_isLeaf rfl readable)
      (wordDatum_literal rfl readable))

theorem derivesAll_tokens {items : List Datum} (readable : AllReadable items)
    (merged : AllMerged items) : DerivesAll (tokensAll items) items := by
  match items with
  | [] => exact .nil
  | first :: rest =>
    exact .cons (derives_tokens readable.1 merged.1) (derivesAll_tokens readable.2 merged.2)

end

section Spellings

variable {datum : Datum} (readable : datum.Readable) (separated : datum.Separated false)
  (merged : datum.IsMerged)
include readable separated merged

/-- The spelling of a merged datum is read as the datum on a stack with room for its depth. -/
theorem readSource_spell {room : Nat} (deep : datum.depth ≤ room) :
    readSource (single (.withRoom room)) (String.ofList datum.spell) = .ok datum := by
  have result := single_of_derives (derives_tokens readable merged) deep
  rw [readSource, ofSource_spell readable separated, result]

/-- On any stack it is read as the datum unless the stack is used up. -/
theorem readSource_spell_or (stack : ReadStack) :
    readSource (single stack) (String.ofList datum.spell) = .ok datum ∨
      readSource (single stack) (String.ofList datum.spell) = .error .stackExhausted := by
  have fits : stack.FitsIn (.withRoom (stack.room + datum.depth)) datum.depth := ⟨rfl, nofun⟩
  have ample := readSource_spell readable separated merged (Nat.le_add_left datum.depth stack.room)
  have plain : (TokenStream.ofSource (String.ofList datum.spell)).EndsPlainly :=
    Token.scanFrom_endsPlainly _ _
  obtain same | ⟨left, exhausted⟩ := (single_alike fits _ plain).1
  · left
    rw [← ample, readSource, readSource, same]
  · right
    rw [readSource, exhausted]

end Spellings

end Reader

/-- A readable datum is placed and then printed as its merged spelling. -/
theorem Datum.render_embedded {session : Session} (begins : session.store.BeginsWithNil)
    {datum : Datum} (readable : datum.Readable) :
    ∃ h left, Routine.embed datum session = .ok h left ∧
      left.store.render h = .ok (String.ofList datum.merged.spell) := by
  obtain ⟨h, left, placed, -, larger, shown⟩ := embedded_places begins readable.native
  have fits : datum.merged.pairs ≤ left.store.heap.size := by
    rw [pairs_merged]
    omega
  rw [← shownAt_merged] at shown
  refine ⟨h, left, ?_, Store.render_shownAt readable.merged (isMerged_merged datum) shown fits⟩
  rw [Routine.embed_eq_embedded]
  exact placed

/-- Printing what a datum is placed as and reading the text again gives the datum with its tails
merged. The vocabulary of the session plays no part, and the reader can only fail for lack of
stack, which it does not where the stack has room for the depth of the datum. -/
theorem Datum.read_rendered {session : Session} (begins : session.store.BeginsWithNil)
    {datum : Datum} (printable : datum.Printable) :
    ∃ h left text, Routine.embed datum session = .ok h left ∧
      left.store.render h = .ok text ∧
      (∀ stack, Reader.readSource (Reader.single stack) text = .ok datum.merged ∨
        Reader.readSource (Reader.single stack) text = .error .stackExhausted) ∧
      ∀ room, datum.merged.depth ≤ room →
        Reader.readSource (Reader.single (.withRoom room)) text = .ok datum.merged := by
  have readable := printable.readable
  have separated := printable.markless.merged.separated false
  have merged := isMerged_merged datum
  obtain ⟨h, left, placed, rendered⟩ := render_embedded begins readable
  exact ⟨h, left, _, placed, rendered,
    Reader.readSource_spell_or readable.merged separated merged,
    fun room deep => Reader.readSource_spell readable.merged separated merged deep⟩

/-- A reserved name, an atom that begins as a boolean does, marks inside a string, a delimiter as
a character and a tail that is a list. -/
theorem Datum.read_rendered_of_tail :
    ∃ h left text,
      Routine.embed (.dotted [.atom "if", .atom "#tx", .string "\x22\n", .character "("]
        (.list [.integer (-12)])) (Session.start .standard 0) = .ok h left ∧
      left.store.render h = .ok text ∧
      Reader.readSource (Reader.single (.withRoom 2)) text = .ok (.list
        [.atom "if", .atom "#tx", .string "\x22\n", .character "(", .integer (-12)]) := by
  have reserved : IsAtomText "if" := by decide
  have hash : IsAtomText "#tx" := by decide
  have short : (-12 : Int).natAbs.repr.length ≤ Text.digitLimit := by decide
  have printable : (Datum.dotted [.atom "if", .atom "#tx", .string "\x22\n", .character "("]
      (.list [.integer (-12)])).Printable :=
    ⟨⟨reserved, hash, trivial, ⟨'(', rfl, .inl (by decide)⟩, trivial⟩, short, trivial⟩
  have begins : (Session.start .standard 0).store.BeginsWithNil := rfl
  obtain ⟨h, left, text, placed, rendered, -, read⟩ := Datum.read_rendered begins printable
  exact ⟨h, left, text, placed, rendered, read 2 (by decide)⟩

end ScopedLisp
