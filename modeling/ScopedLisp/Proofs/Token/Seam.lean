import ScopedLisp.Proofs.Token.Lexing
import ScopedLisp.Proofs.Token.Lossless
import ScopedLisp.Token.Stream

/-!
# Texts on lines of their own

A text that is scanned to its end has no string and no block comment open there, and every other
lexeme ends with its line at the latest. So if another text follows on a new line, the tokens of
the whole are those of the first text and those of the second one. The second text is scanned as it
is by itself; only the place that its failure may tell lies further on.
-/

namespace ScopedLisp

/-- The defect of a text as it is told if `shift` more characters stand in front of the text. -/
def SourceDefect.moved (shift : Nat) : SourceDefect → SourceDefect
  | .unexpectedChar position c => .unexpectedChar (position + shift) c
  | defect => defect

/-- The failure as it is if `shift` more characters stand in front of the source text. -/
def Failure.moved (shift : Nat) : Failure → Failure
  | .malformedSource defect => .malformedSource (defect.moved shift)
  | failure => failure

/-- The stream of a text in front of which `shift` more characters stand. -/
def TokenStream.moved (shift : Nat) (stream : TokenStream) : TokenStream :=
  { stream with failure := stream.failure.map (·.moved shift) }

namespace Lexeme

/-! ### Lexemes in front of the end of a line -/

theorem takeWhile_append_newline {p : Char → Bool} (stops : p '\n' = false)
    (cs more : List Char) : (cs ++ '\n' :: more).takeWhile p = cs.takeWhile p := by
  induction cs with
  | nil =>
    rw [List.nil_append, List.takeWhile_cons_of_neg (by rw [stops]; decide), List.takeWhile_nil]
  | cons c rest ih => simp only [List.cons_append, List.takeWhile_cons, ih]

theorem stringLength_append {cs : List Char} {length : Nat} (taken : stringLength cs = some length)
    (more : List Char) : stringLength (cs ++ more) = some length := by
  obtain ⟨body, rest, rfl, closed, rfl⟩ := exists_body_of_stringLength taken
  rw [List.append_assoc, List.cons_append]
  exact closed.stringLength _

theorem blockLength_append {cs : List Char} {length : Nat} (taken : blockLength 1 cs = some length)
    (more : List Char) : blockLength 1 (cs ++ more) = some length := by
  obtain ⟨inner, rest, remaining, rfl, closed, none_left, rfl⟩ :=
    exists_inBlock_of_blockLength cs taken
  rw [blockLength] at none_left
  cases none_left
  rw [List.append_assoc, closed.blockLength 0, blockLength, Option.map_some, Nat.zero_add,
    Nat.add_zero]

theorem characterLength_append_newline (name more : List Char) :
    characterLength (name ++ '\n' :: more) = characterLength name := by
  have cut := takeWhile_append_newline (p := (!isDelimiter ·)) (by decide) name more
  unfold characterLength
  rw [cut]
  cases name with
  | nil => rfl
  | cons c rest => rfl

theorem afterHash_append_newline {rest : List Char} {lexeme : Lexeme}
    (found : afterHash rest = .ok lexeme) (more : List Char) :
    afterHash (rest ++ '\n' :: more) = .ok lexeme := by
  have symbol_cut := takeWhile_append_newline (p := isSymbolChar) (by decide) rest more
  have name_cut := takeWhile_append_newline (p := (!isDelimiter ·)) (by decide) rest more
  unfold afterHash at found
  split at found
  · next comment =>
    cases taken : blockLength 1 comment with
    | none =>
      rw [taken] at found
      cases found
    | some length =>
      rw [taken] at found
      cases found
      simp only [afterHash, List.cons_append, blockLength_append taken]
  · next name =>
    simp only [afterHash, List.cons_append, characterLength_append_newline] at *
    rw [symbol_cut]
    exact found
  · next not_comment not_character =>
    unfold afterHash
    split
    · next comment same =>
      cases rest with
      | nil => cases same
      | cons c others =>
        cases same
        exact (not_comment others rfl).elim
    · next name same =>
      cases rest with
      | nil => cases same
      | cons c others =>
        cases same
        exact (not_character others rfl).elim
    · rw [symbol_cut, name_cut]
      exact found

theorem ite_ok_of_ite_ok {test : Prop} [Decidable test]
    {yes no yes' no' : Except SourceDefect Lexeme} {lexeme : Lexeme}
    (first : yes = .ok lexeme → yes' = .ok lexeme) (second : no = .ok lexeme → no' = .ok lexeme)
    (found : (if test then yes else no) = .ok lexeme) :
    (if test then yes' else no') = .ok lexeme := by
  by_cases holds : test
  · rw [if_pos holds] at found ⊢
    exact first found
  · rw [if_neg holds] at found ⊢
    exact second found

/-- A lexeme is the same where its text goes on with a new line. -/
theorem lexemeAt_append_newline {position : Nat} {c : Char} {rest : List Char} {lexeme : Lexeme}
    (found : lexemeAt position c rest = .ok lexeme) (more : List Char) :
    lexemeAt position c (rest ++ '\n' :: more) = .ok lexeme := by
  unfold lexemeAt at found ⊢
  rw [takeWhile_append_newline (p := (· != '\n')) (by decide),
    takeWhile_append_newline (p := isSymbolChar) (by decide)]
  revert found
  -- blanks, comments, quote marks and parentheses are the same at once
  iterate 5 apply ite_ok_of_ite_ok id
  apply ite_ok_of_ite_ok
  · intro found
    cases taken : stringLength rest with
    | none =>
      rw [taken] at found
      cases found
    | some length =>
      rw [taken] at found
      rw [stringLength_append taken]
      exact found
  · exact ite_ok_of_ite_ok (fun found => afterHash_append_newline found more) id

/-- Only a defect that tells its place depends on where the text stands. -/
theorem lexemeAt_add (position shift : Nat) (c : Char) (rest : List Char) :
    lexemeAt (position + shift) c rest =
      (lexemeAt position c rest).mapError (SourceDefect.moved shift) := by
  have hash : (afterHash rest).mapError (SourceDefect.moved shift) = afterHash rest := by
    unfold afterHash
    split
    · split <;> rfl
    · split <;> rfl
    · dsimp only
      split <;> rfl
  unfold lexemeAt
  simp only [apply_ite (Except.mapError (SourceDefect.moved shift)), hash]
  cases stringLength rest <;> rfl

/-- A lexeme does not reach beyond the text. -/
theorem more_le_length {position : Nat} {c : Char} {rest : List Char} {lexeme : Lexeme}
    (found : lexemeAt position c rest = .ok lexeme) : lexeme.more ≤ rest.length := by
  have cut := lexemeAt_cut position c rest
  rw [found] at cut
  cases cut with
  | skip | token =>
    rw [List.length_append]
    exact Nat.le_add_right _ _

end Lexeme

/-! ### Scanning across the end of a line -/

namespace Token

theorem scanFrom_add (position shift : Nat) (cs : List Char) :
    scanFrom (position + shift) cs = TokenStream.moved shift (scanFrom position cs) := by
  fun_induction scanFrom position cs with
  | case1 =>
    rw [scanFrom]
    rfl
  | case2 position c rest defect found =>
    rw [scanFrom, Lexeme.lexemeAt_add, found]
    rfl
  | case3 position c rest lexeme found following kind named ih =>
    rw [scanFrom, Lexeme.lexemeAt_add, found]
    have place : position + shift + 1 + lexeme.more = position + 1 + lexeme.more + shift := by omega
    simp only [Except.mapError, named, place, ih]
    rfl
  | case4 position c rest lexeme found following unnamed ih =>
    rw [scanFrom, Lexeme.lexemeAt_add, found]
    have place : position + shift + 1 + lexeme.more = position + 1 + lexeme.more + shift := by omega
    simp only [Except.mapError, unnamed, place, ih]
    rfl

/-- Two texts on lines of their own have the tokens of the first one and then those of the second
one, if the first one is scanned to its end. -/
theorem scanFrom_append_newline (position : Nat) (cs more : List Char)
    (complete : (scanFrom position cs).failure = none) :
    scanFrom position (cs ++ '\n' :: more) =
      (scanFrom (position + cs.length + 1) more).prepend (scanFrom position cs).items := by
  fun_induction scanFrom position cs with
  | case1 position =>
    rw [List.nil_append, scanFrom]
    rfl
  | case2 position c rest defect found => cases complete
  | case3 position c rest lexeme found following kind named ih =>
    have short := Lexeme.more_le_length found
    rw [List.cons_append, scanFrom, Lexeme.lexemeAt_append_newline found more]
    have place : position + (c :: rest).length + 1 =
        position + 1 + lexeme.more + (rest.drop lexeme.more).length + 1 := by
      rw [List.length_cons, List.length_drop]
      omega
    simp only [named, List.drop_append_of_le_length short, List.take_append_of_le_length short,
      ih complete, place]
    rfl
  | case4 position c rest lexeme found following unnamed ih =>
    have short := Lexeme.more_le_length found
    rw [List.cons_append, scanFrom, Lexeme.lexemeAt_append_newline found more]
    have place : position + (c :: rest).length + 1 =
        position + 1 + lexeme.more + (rest.drop lexeme.more).length + 1 := by
      rw [List.length_cons, List.length_drop]
      omega
    simp only [unnamed, List.drop_append_of_le_length short, ih complete, place]
    rfl

end Token

end ScopedLisp
