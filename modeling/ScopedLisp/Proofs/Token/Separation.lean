import ScopedLisp.Proofs.Token.Complete

/-!
# Tokens that stand apart

A token of a text that is scanned to its end is found again wherever its text stands, if what
follows does not run into it. So the texts of the tokens stand for the tokens: whatever blanks and
comments are put between them, and even if there are none where a mark or a closing quotation mark
keeps two tokens apart, the same tokens are scanned.
-/

namespace ScopedLisp

open Text (isBlank)

namespace Lexeme

/-! ### Gaps -/

theorem lexemeAt_skipped {c : Char} {run following : List Char}
    (skipped : Skipped (c :: run) following) (position : Nat) :
    lexemeAt position c (run ++ following) = .ok ⟨none, run.length⟩ := by
  cases skipped with
  | blank blank => exact if_pos blank
  | line inside ends =>
    have within : ∀ d ∈ run, (d != '\n') = true := by
      intro d member
      rw [bne_iff_ne]
      rintro rfl
      exact inside member
    have cut : (run ++ following).takeWhile (· != '\n') = run := by
      rw [List.takeWhile_append_of_pos within]
      cases following with
      | nil => rw [List.takeWhile_nil, List.append_nil]
      | cons d more =>
        rw [ends d rfl, List.takeWhile_cons_of_neg (by decide), List.append_nil]
    have found : lexemeAt position ';' (run ++ following) =
        .ok ⟨none, ((run ++ following).takeWhile (· != '\n')).length⟩ := rfl
    rw [found, cut]
  | @block body closed =>
    have level := closed.blockLength 0 following
    rw [blockLength, Option.map_some] at level
    change afterHash ('|' :: (body ++ following)) = _
    simp only [afterHash, level, Nat.zero_add, List.length_cons]

/-! ### Characters -/

/-- What a character literal holds behind its mark is one character that is no blank, or a name
without delimiters. -/
theorem isDelimited_of_characterLength {name following : List Char}
    (taken : characterLength (name ++ following) = some name.length) :
    name ≠ [] ∧ ((∀ c ∈ name, isDelimiter c = false) ∨ ∃ c, name = [c] ∧ isBlank c = false) := by
  unfold characterLength at taken
  split at taken
  · next c run cut =>
    have length : (c :: run).length = name.length := Option.some.inj taken
    have initial : c :: run <+: name ++ following := cut ▸ List.takeWhile_prefix _
    have same : c :: run = name := by
      obtain ⟨rest, whole⟩ := initial
      exact (List.append_inj whole length).1
    refine ⟨same ▸ List.cons_ne_nil c run, .inl fun d member => ?_⟩
    rw [← same, ← cut] at member
    simpa using List.mem_takeWhile_imp member
  · next none_taken =>
    split at taken
    · cases taken
    · next visible =>
      obtain ⟨c, rfl⟩ := List.length_eq_one_iff.mp (Option.some.inj taken).symm
      refine ⟨List.cons_ne_nil c [], .inr ⟨c, rfl, ?_⟩⟩
      simpa using visible

end Lexeme

namespace ScansTo

variable {listing : Listing Token}

theorem skipped {piece following : List Char} (skipped : Lexeme.Skipped piece following)
    (follow : ScansTo following listing) : ScansTo (piece ++ following) listing := by
  cases piece with
  | nil => cases skipped
  | cons c run =>
    intro position
    rw [List.cons_append, Token.scanFrom, Lexeme.lexemeAt_skipped skipped]
    simp only [List.drop_left]
    exact follow _

theorem gap {gap following : List Char} (between : Lexeme.Gap gap following)
    (follow : ScansTo following listing) : ScansTo (gap ++ following) listing := by
  induction between with
  | nil => exact follow
  | cons first _ ih =>
    rw [List.append_assoc]
    exact (ih follow).skipped first

end ScansTo

namespace Token

/-! ### Tokens -/

/-- What follows does not run into the token. Marks and strings end by themselves. Anything else
ends where a delimiter stands, but behind the mark of a character alone that has to be a blank. -/
def StandsApart (token : Token) (following : List Char) : Prop :=
  match token.kind with
  | .quote | .openList | .closeList | .string => True
  | _ => Delimited following ∧
    (token.text = "#\\" → ∀ c ∈ following.head?, isBlank c = true)

theorem standsApart_of_blank {following : List Char}
    (blank : ∀ c ∈ following.head?, isBlank c = true) (token : Token) :
    token.StandsApart following := by
  have delimited : Delimited following := by
    intro c first
    rw [Lexeme.isDelimiter, blank c first, Bool.true_or]
  unfold StandsApart
  split
  any_goals trivial
  exact ⟨delimited, fun _ => blank⟩

theorem standsApart_nil (token : Token) : token.StandsApart [] :=
  standsApart_of_blank (by rintro _ ⟨⟩) token

theorem standsApart_cons {c : Char} (blank : isBlank c = true) (rest : List Char) (token : Token) :
    token.StandsApart (c :: rest) :=
  standsApart_of_blank (by rintro _ ⟨⟩; exact blank) token

namespace IsCutOff

variable {kind : TokenKind} {text : String}

/-- The token is found again wherever it stands apart from what follows. -/
theorem lexemeAt (cut : IsCutOff ⟨kind, text⟩) {c : Char} {run following : List Char}
    (spelled : text.toList = c :: run) (apart : StandsApart ⟨kind, text⟩ following)
    (position : Nat) :
    Lexeme.lexemeAt position c (run ++ following) = .ok ⟨some kind, run.length⟩ := by
  have lexeme := cut.lexeme
  cases kind with
  | quote =>
    rw [lexeme.quote] at spelled
    cases spelled
    rfl
  | openList =>
    rw [lexeme.openList] at spelled
    cases spelled
    rfl
  | closeList =>
    rw [lexeme.closeList] at spelled
    cases spelled
    rfl
  | string =>
    obtain ⟨body, closed, whole⟩ := lexeme.string
    cases whole.symm.trans spelled
    have length := closed.stringLength following
    rw [List.append_assoc, List.singleton_append, List.length_append, List.length_singleton]
    unfold Lexeme.lexemeAt
    rw [length]
    rfl
  | character =>
    obtain ⟨name, behind, whole, taken⟩ := lexeme.character
    cases whole.symm.trans spelled
    obtain ⟨nonempty, delimited⟩ := Lexeme.isDelimited_of_characterLength taken
    exact Lexeme.lexemeAt_character nonempty delimited apart.1 position
  | boolean =>
    have named := lexeme.boolean
    simp only [List.mem_cons, List.not_mem_nil, or_false] at named
    rcases named with rfl | rfl | rfl | rfl <;> cases spelled <;>
      exact Lexeme.lexemeAt_boolean (by decide) apart.1 position
  | symbol =>
    rcases cut.symbol rfl with symbol | mark
    · rw [show (Token.mk .symbol text).text.toList = c :: run from spelled] at symbol
      exact Lexeme.lexemeAt_symbol symbol apart.1 position
    · cases mark.symm.trans spelled
      exact Lexeme.lexemeAt_bareMark (apart.2 (String.toList_inj.mp mark)) position
  | other name => exact lexeme.kind_ne_other.elim

theorem scansTo {token : Token} (cut : token.IsCutOff) {following : List Char}
    (apart : token.StandsApart following) {listing : Listing Token}
    (follow : ScansTo following listing) :
    ScansTo (token.text.toList ++ following) (listing.prepend [token]) := by
  obtain ⟨kind, text⟩ := token
  obtain ⟨_, c, run, _, _, spelled, _⟩ := cut.lexeme.exists_first?
  have whole : String.ofList (c :: run) = text := by rw [← spelled, String.ofList_toList]
  have found := ScansTo.token (cut.lexemeAt spelled apart) follow
  rw [whole] at found
  change ScansTo (text.toList ++ following) _
  rw [spelled]
  exact found

end IsCutOff

/-! ### Texts of several tokens -/

/-- The tokens stand in the text in their order and apart from what follows them, with a gap in
front of each and a gap at the end. -/
inductive Separated : List Token → List Char → Prop where
  | last {gap : List Char} (between : Lexeme.Gap gap []) : Separated [] gap
  | token {gap following : List Char} {token : Token} {rest : List Token}
    (between : Lexeme.Gap gap (token.text.toList ++ following))
    (apart : token.StandsApart following) (later : Separated rest following) :
    Separated (token :: rest) (gap ++ (token.text.toList ++ following))

namespace Separated

variable {tokens : List Token} {cs : List Char}

theorem scansTo (separated : Separated tokens cs) (cut : ∀ token ∈ tokens, token.IsCutOff) :
    ScansTo cs ⟨tokens, none⟩ := by
  induction separated with
  | @last gap between =>
    have ended := ScansTo.nil.gap between
    rw [List.append_nil] at ended
    exact ended
  | token between apart _ ih =>
    obtain ⟨first, others⟩ := List.forall_mem_cons.mp cut
    exact (first.scansTo apart (ih others)).gap between

/-- A blank in front belongs to the first gap. -/
theorem blank (separated : Separated tokens cs) : Separated tokens (' ' :: cs) := by
  have first (following : List Char) : Lexeme.Skipped [' '] following :=
    .blank (by decide) following
  cases separated with
  | last between => exact .last (.cons (first _) between)
  | token between apart later => exact .token (.cons (first _) between) apart later

/-- The texts of tokens with a single blank between them. -/
theorem intercalate (tokens : List Token) :
    Separated tokens (" ".intercalate (tokens.map (·.text))).toList := by
  induction tokens with
  | nil => exact .last (.nil [])
  | cons token rest ih =>
    cases rest with
    | nil =>
      have alone := Separated.token (.nil _) token.standsApart_nil (.last (.nil []))
      rw [List.nil_append, List.append_nil] at alone
      rw [List.map_cons, List.map_nil, String.intercalate_singleton]
      exact alone
    | cons next others =>
      have apart := standsApart_cons (c := ' ') (by decide)
      have first := Separated.token (.nil _) (apart _ token) ih.blank
      rw [List.map_cons, List.map_cons, String.intercalate_cons_cons, String.toList_append,
        String.toList_append, List.append_assoc]
      exact first

end Separated

/-- The texts of the tokens of a source text stand for the tokens, if it is scanned to its end:
joined by single blanks they yield just these tokens again. So do all texts in which they stand in
their order with blanks and comments before, between and behind them, as many and of whatever kind,
as long as no token runs into what follows it. -/
theorem scan_separated (source : String) (complete : (scan source).failure = none) :
    scan (" ".intercalate ((scan source).items.map (·.text))) = scan source ∧
      ∀ text : String, Separated (scan source).items text.toList → scan text = scan source := by
  have all (text : String) (separated : Separated (scan source).items text.toList) :
      scan text = scan source := by
    have found := separated.scansTo (fun _ => isCutOff_of_mem_scan complete) 0
    rw [← complete] at found
    exact found
  exact ⟨all _ (.intercalate _), all⟩

/-- The mark of a character alone, a semicolon as a character and a boolean behind a quotation mark;
and the same tokens with a tab, two nested comments and a line comment between them. -/
theorem scan_separated_of_bareMark :
    let source := "(#\\ #\\;'#t)"
    let tokens : List Token :=
      [.opening, ⟨.symbol, "#\\"⟩, ⟨.character, "#\\;"⟩, ⟨.quote, "'"⟩, ⟨.boolean, "#t"⟩, .closing]
    (scan source).failure = none ∧ scan source = ⟨tokens, none⟩ ∧
      scan "( #\\ #\\; ' #t )" = ⟨tokens, none⟩ ∧
      scan "(#\\\t#\\; #|#||#|#'#t;c\n)" = ⟨tokens, none⟩ := by
  intro source tokens
  have scanned : scan source = ⟨tokens, none⟩ := by
    change scan "(#\\ #\\;'#t)" = _
    cbv
  have complete : (scan source).failure = none := by rw [scanned]
  obtain ⟨joined, apart⟩ := scan_separated source complete
  rw [scanned] at joined apart
  refine ⟨complete, scanned, joined, apart _ ?_⟩
  have blank {c : Char} (blank : isBlank c = true) (following : List Char) :
      Lexeme.Gap [c] following := @Lexeme.Gap.cons [c] [] _ (.blank blank _) (.nil _)
  have line : Lexeme.Gap [';', 'c', '\n'] [')'] :=
    @Lexeme.Gap.cons [';', 'c'] ['\n'] _ (.line (by decide) (by rintro _ ⟨⟩; rfl))
      (blank (by decide) _)
  have comment (following : List Char) :
      Lexeme.Gap [' ', '#', '|', '#', '|', '|', '#', '|', '#'] following :=
    @Lexeme.Gap.cons [' '] _ _ (.blank (by decide) _)
      (@Lexeme.Gap.cons _ [] _ (.block (.nested .close .close) _) (.nil _))
  -- from the last token to the first one
  have closed := @Separated.token _ [] .closing [] line trivial (.last (.nil []))
  have named := @Separated.token [] _ ⟨.boolean, "#t"⟩ _ (.nil _)
    ⟨delimited_cons (by decide) _, fun same => absurd same (by decide)⟩ closed
  have quoted := @Separated.token _ _ ⟨.quote, "'"⟩ _ (comment _) trivial named
  have marked := @Separated.token ['\t'] _ ⟨.character, "#\\;"⟩ _ (blank (by decide) _)
    (standsApart_cons (by decide) _ _) quoted
  have alone := @Separated.token [] _ ⟨.symbol, "#\\"⟩ _ (.nil _)
    (standsApart_cons (by decide) _ _) marked
  exact @Separated.token [] _ .opening _ (.nil _) trivial alone

end Token

end ScopedLisp
