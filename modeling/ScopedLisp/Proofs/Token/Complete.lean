import ScopedLisp.Proofs.Token.LexemeText
import ScopedLisp.Proofs.Token.Lexing

/-!
# Symbols of a text that is scanned to its end

A symbol goes on up to a delimiter or a comma, and scanning does not get past a comma. So in a text
that is scanned to its end every symbol is cut off by a delimiter or by the end of the text, and it
is the same symbol wherever it is cut off in this way. The one exception is the mark of a character
with nothing but a blank behind it.
-/

namespace ScopedLisp

namespace Lexeme

/-- The characters are a symbol wherever they are cut off, or the mark of a character alone. -/
def IsSymbolText (cs : List Char) : Prop := IsSymbol cs ∨ cs = ['#', '\\']

/-- Behind the characters of symbols stands a delimiter, unless it is a comma. -/
theorem delimited_dropWhile_isSymbolChar {cs : List Char}
    (no_comma : (cs.dropWhile isSymbolChar).head? ≠ some ',') :
    Delimited (cs.dropWhile isSymbolChar) := by
  intro c first
  have other : isSymbolChar c = false := by
    have stops := List.head?_dropWhile_not isSymbolChar cs
    rw [first] at stops
    simpa using stops
  have not_comma : c ≠ ',' := fun same => no_comma (same ▸ first)
  simpa [isSymbolChar, not_comma] using other

theorem take_length_takeWhile (allowed : Char → Bool) (cs : List Char) :
    cs.take (cs.takeWhile allowed).length = cs.takeWhile allowed :=
  (List.prefix_iff_eq_take.mp (List.takeWhile_prefix allowed)).symm

theorem isSymbolChar_of_mem_cons {c : Char} {rest : List Char} (plain : isSymbolChar c = true) :
    ∀ d ∈ c :: rest.takeWhile isSymbolChar, isSymbolChar d = true :=
  List.forall_mem_cons.mpr ⟨plain, fun _ => List.mem_takeWhile_imp⟩

/-- The word behind `#` that is not the name of a boolean. -/
theorem isSymbol_hash {rest : List Char} (not_block : ∀ comment, rest ≠ '|' :: comment)
    (not_character : ∀ name, rest ≠ '\\' :: name)
    (unnamed : rest.takeWhile (!isDelimiter ·) ∉ booleanNames)
    (no_comma : (rest.dropWhile isSymbolChar).head? ≠ some ',') :
    IsSymbol ('#' :: rest.takeWhile isSymbolChar) where
  nonempty := List.cons_ne_nil _ _
  plain := isSymbolChar_of_mem_cons (by decide)
  not_comment begins := by
    obtain ⟨more, same⟩ := (List.cons_prefix_cons.mp begins).2.trans (List.takeWhile_prefix _)
    exact not_block more same.symm
  not_character begins := by
    obtain ⟨more, same⟩ := (List.cons_prefix_cons.mp begins).2.trans (List.takeWhile_prefix _)
    exact not_character more same.symm
  not_boolean name named same := by
    have run : rest.takeWhile isSymbolChar = name := (List.cons.inj same).2
    have inside : ∀ c ∈ rest.takeWhile isSymbolChar, isDelimiter c = false :=
      fun c member => isDelimiter_of_isSymbolChar (List.mem_takeWhile_imp member)
    have cut := takeWhile_not_isDelimiter inside (delimited_dropWhile_isSymbolChar no_comma)
    rw [List.takeWhile_append_dropWhile, run] at cut
    exact unnamed (cut ▸ named)

theorem isSymbolText_of_afterHash {rest : List Char} {more : Nat}
    (found : afterHash rest = .ok ⟨some .symbol, more⟩)
    (no_comma : (rest.drop more).head? ≠ some ',') : IsSymbolText ('#' :: rest.take more) := by
  unfold afterHash at found
  split at found
  · split at found <;> cases found
  · next name =>
    split at found
    · cases found
    · next no_character =>
      cases found
      rw [take_length_takeWhile, takeWhile_of_characterLength_none no_character]
      exact .inr rfl
  · next not_block not_character =>
    dsimp only at found
    split at found
    · cases found
    · next unnamed =>
      cases found
      rw [take_length_takeWhile]
      rw [drop_length_takeWhile] at no_comma
      exact .inl (isSymbol_hash (fun _ => not_block _) (fun _ => not_character _)
        (fun named => unnamed (List.contains_iff_mem.mpr named)) no_comma)

/-- A symbol that no comma follows. -/
theorem isSymbolText_of_lexemeAt {position : Nat} {c : Char} {rest : List Char} {more : Nat}
    (found : lexemeAt position c rest = .ok ⟨some .symbol, more⟩)
    (no_comma : (rest.drop more).head? ≠ some ',') : IsSymbolText (c :: rest.take more) := by
  unfold lexemeAt at found
  split at found
  · cases found
  split at found
  · cases found
  split at found
  · cases found
  split at found
  · cases found
  split at found
  · cases found
  split at found
  · split at found <;> cases found
  split at found
  · next hash =>
    subst hash
    exact isSymbolText_of_afterHash found no_comma
  split at found
  · cases found
  · next not_blank not_comment not_quote not_open not_close not_string not_hash not_comma =>
    cases found
    rw [take_length_takeWhile]
    have plain : isSymbolChar c = true := by
      rw [isSymbolChar_iff]
      exact ⟨Bool.eq_false_iff.mpr not_blank, by simp [*]⟩
    exact .inl (.of_ne_hash not_hash (isSymbolChar_of_mem_cons plain))

end Lexeme

namespace Token

/-- The token is a lexeme of a text that is scanned to its end. -/
structure IsCutOff (token : Token) : Prop where
  lexeme : token.IsLexeme
  symbol : token.kind = .symbol → Lexeme.IsSymbolText token.text.toList

theorem isSymbolText_of_mem_scanFrom {position : Nat} {cs : List Char}
    (complete : (scanFrom position cs).failure = none) {text : String}
    (member : ⟨.symbol, text⟩ ∈ (scanFrom position cs).items) :
    Lexeme.IsSymbolText text.toList := by
  fun_induction scanFrom position cs with
  | case1 => cases member
  | case2 position c rest defect found => cases member
  | case3 position c rest lexeme found following kind named ih =>
    rcases List.mem_cons.mp member with same | later
    · cases same
      have no_comma : (rest.drop lexeme.more).head? ≠ some ',' := by
        intro comma
        obtain ⟨tail, same⟩ := List.head?_eq_some_iff.mp comma
        have stopped : following.failure = none := complete
        simp only [following, same] at stopped
        rw [scanFrom] at stopped
        cases stopped
      obtain ⟨_, more⟩ := lexeme
      cases named
      rw [String.toList_ofList]
      exact Lexeme.isSymbolText_of_lexemeAt found no_comma
    · exact ih complete later
  | case4 position c rest lexeme found following unnamed ih => exact ih complete member

theorem isCutOff_of_mem_scan {source : String} (complete : (scan source).failure = none)
    {token : Token} (member : token ∈ (scan source).items) : token.IsCutOff where
  lexeme := isLexeme_of_mem_scan member
  symbol kind := by
    obtain ⟨_, text⟩ := token
    cases kind
    exact isSymbolText_of_mem_scanFrom complete member

end Token

end ScopedLisp
