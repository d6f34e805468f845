import ScopedLisp.Proofs.Token.Lossless

/-!
# The texts of lexemes

Which texts the tokens of each kind can have when they come from a source text.
-/

namespace ScopedLisp.Token

open Lexeme (firstMatch?)

/-- Kind and text of the token are those of a lexeme. -/
def IsLexeme (token : Token) : Prop :=
  ∃ following, firstMatch? (token.text.toList ++ following) = some (.token token.kind, following)

theorem Tiling.isLexeme {cs last rest : List Char} {parts : List (List Char × Token)}
    (tiling : Tiling cs parts last rest) : ∀ part ∈ parts, part.2.IsLexeme := by
  induction tiling with
  | last => exact nofun
  | @token _ text following _ _ _ _ _ fits _ ih =>
    refine List.forall_mem_cons.mpr ⟨⟨following, ?_⟩, ih⟩
    rw [String.toList_ofList]
    exact fits

/-- Scanning yields lexemes. -/
theorem isLexeme_of_mem_scan {source : String} {token : Token}
    (member : token ∈ (scan source).items) : token.IsLexeme := by
  obtain ⟨parts, last, rest, tiling, items, -⟩ := scanFrom_tiles 0 source.toList
  rw [scan, items] at member
  obtain ⟨part, among, rfl⟩ := List.mem_map.mp member
  exact tiling.isLexeme part among

namespace IsLexeme

variable {text : String} {kind : TokenKind}

theorem kind_ne_other {name : String} (lexeme : IsLexeme ⟨.other name, text⟩) : False := by
  obtain ⟨following, fits⟩ := lexeme
  obtain ⟨pattern, member, -⟩ := Lexeme.first?_of_firstMatch? fits
  simp [Lexeme.patterns] at member

/-- The lexeme is not empty, and the pattern of its kind takes it. -/
theorem exists_first? (lexeme : IsLexeme ⟨kind, text⟩) :
    ∃ pattern c run following, (Lexeme.Class.token kind, pattern) ∈ Lexeme.patterns ∧
      text.toList = c :: run ∧ pattern.first? (c :: (run ++ following)) = some following := by
  obtain ⟨following, fits⟩ := lexeme
  obtain ⟨pattern, member, first⟩ := Lexeme.first?_of_firstMatch? fits
  obtain ⟨taken, nonempty, same⟩ := Lexeme.exists_taken_of_firstMatch? fits
  obtain ⟨c, run, rfl⟩ := List.exists_cons_of_ne_nil nonempty
  have whole : text.toList = c :: run := List.append_cancel_right same
  rw [whole] at first
  exact ⟨pattern, c, run, following, member, whole, first⟩

theorem of_literal {mark : Char} (lexeme : IsLexeme ⟨kind, text⟩)
    (only : ∀ pattern, (Lexeme.Class.token kind, pattern) ∈ Lexeme.patterns →
      pattern = .literal [mark]) : text.toList = [mark] := by
  obtain ⟨pattern, c, run, following, member, whole, first⟩ := lexeme.exists_first?
  rw [only pattern member, Pattern.first?_literal] at first
  split at first
  · next begins =>
    obtain ⟨rfl, -⟩ := List.cons_prefix_cons.mp begins
    have rest : run ++ following = following := Option.some.inj first
    rw [whole, List.append_left_eq_self.mp rest]
  · cases first

theorem quote (lexeme : IsLexeme ⟨.quote, text⟩) : text = "\x27" := by
  have spelled : text.toList = ['\x27'] := by
    apply lexeme.of_literal
    intro pattern member
    simpa [Lexeme.patterns] using member
  exact String.toList_inj.mp spelled

theorem openList (lexeme : IsLexeme ⟨.openList, text⟩) : text = "(" := by
  have spelled : text.toList = ['('] := by
    apply lexeme.of_literal
    intro pattern member
    simpa [Lexeme.patterns] using member
  exact String.toList_inj.mp spelled

theorem closeList (lexeme : IsLexeme ⟨.closeList, text⟩) : text = ")" := by
  have spelled : text.toList = [')'] := by
    apply lexeme.of_literal
    intro pattern member
    simpa [Lexeme.patterns] using member
  exact String.toList_inj.mp spelled

theorem string (lexeme : IsLexeme ⟨.string, text⟩) :
    ∃ body, Lexeme.IsStringBody body ∧ text.toList = '\x22' :: (body ++ ['\x22']) := by
  obtain ⟨pattern, c, run, following, member, whole, first⟩ := lexeme.exists_first?
  have only : pattern = Lexeme.stringPattern := by simpa [Lexeme.patterns] using member
  rw [only, Lexeme.first?_stringPattern] at first
  split at first
  · next mark =>
    obtain ⟨length, taken, left⟩ := Option.map_eq_some_iff.mp first
    obtain ⟨body, tail, cut, closed, rfl⟩ := Lexeme.exists_body_of_stringLength taken
    have joined : run ++ following = (body ++ ['\x22']) ++ tail := by
      rw [cut, List.append_assoc, List.singleton_append]
    have behind : following = tail := by
      rw [joined, ← List.length_singleton (a := '\x22'), ← List.length_append,
        List.drop_left] at left
      exact left.symm
    rw [behind] at joined
    exact ⟨body, closed, by rw [whole, mark, List.append_cancel_right joined]⟩
  · cases first

/-- Behind its mark the lexeme of a character has just what belongs to the character. -/
theorem character (lexeme : IsLexeme ⟨.character, text⟩) :
    ∃ name following, text.toList = '#' :: '\\' :: name ∧
      Lexeme.characterLength (name ++ following) = some name.length := by
  obtain ⟨pattern, c, run, following, member, whole, first⟩ := lexeme.exists_first?
  have only : pattern = Lexeme.characterPattern := by simpa [Lexeme.patterns] using member
  rw [only, Lexeme.first?_characterPattern] at first
  split at first
  · next begins =>
    obtain ⟨rfl, name, same⟩ := List.cons_prefix_cons.mp begins
    rw [← same] at first
    obtain ⟨length, taken, left⟩ := Option.map_eq_some_iff.mp first
    have size := congrArg List.length same
    have behind := congrArg List.length left
    have short := Lexeme.Cut.characterLength_le taken
    cases run with
    | nil =>
      simp at size behind
      omega
    | cons d name =>
      cases same
      simp at behind short
      have exact_length : length = name.length := by omega
      exact ⟨name, following, whole, exact_length ▸ taken⟩
  · cases first

theorem boolean (lexeme : IsLexeme ⟨.boolean, text⟩) :
    text ∈ ["#t", "#true", "#f", "#false"] := by
  obtain ⟨pattern, c, run, following, member, whole, first⟩ := lexeme.exists_first?
  have only : pattern = Lexeme.booleanPattern := by simpa [Lexeme.patterns] using member
  rw [only, Lexeme.first?_booleanPattern] at first
  split at first
  · next named =>
    obtain ⟨rfl, named⟩ := named
    have parts :=
      List.takeWhile_append_dropWhile (l := run ++ following) (p := (!Lexeme.isDelimiter ·))
    rw [Option.some.inj first] at parts
    rw [List.append_cancel_right parts] at named
    have spelled : ∀ word ∈ Lexeme.booleanNames,
        String.ofList ('#' :: word) ∈ ["#t", "#true", "#f", "#false"] := by decide
    have listed := spelled run named
    rw [← whole, String.ofList_toList] at listed
    exact listed
  · cases first

end IsLexeme

end ScopedLisp.Token
