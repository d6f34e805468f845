import ScopedLisp.Proofs.Datum.Recognition

/-!
# What the reader accepts

On a stack that holds, the reader accepts the token lists of the grammar and no others, and takes
just the tokens that denote the datum. Whether a stack holds is up to the machine, but one with
room for a nested call for each token always does.
-/

namespace ScopedLisp

/-- A list of tokens begins with one datum at most. -/
theorem Derives.unique {taken rest taken' rest' : List Token} {datum datum' : Datum}
    (same : taken ++ rest = taken' ++ rest') (derives : Derives taken datum)
    (derives' : Derives taken' datum') : taken = taken' ∧ datum = datum' := by
  have read : Reader.datum? (.withRoom (max datum.depth datum'.depth)) ⟨taken ++ rest, none⟩ =
      .ok (some datum) ⟨rest, none⟩ :=
    Reader.datum?_of_derives derives (Nat.le_max_left _ _)
  have read' : Reader.datum? (.withRoom (max datum.depth datum'.depth)) ⟨taken' ++ rest', none⟩ =
      .ok (some datum') ⟨rest', none⟩ :=
    Reader.datum?_of_derives derives' (Nat.le_max_right _ _)
  rw [same, read'] at read
  cases read
  exact ⟨List.append_cancel_right same, rfl⟩

namespace Reader

variable {stack : ReadStack} {tokens : List Token}

/-- The reader runs out of stack on these tokens. -/
def RunsOut (stack : ReadStack) (tokens : List Token) : Prop :=
  ∃ left, datum? stack ⟨tokens, none⟩ = .error .stackExhausted left

/-- The next datum of these tokens is the one that some of them at the beginning denote. There is
none just where there are no tokens, and reading fails on account of the text in the other cases. -/
structure Accepts (stack : ReadStack) (tokens : List Token) : Prop where
  some_iff : ∀ datum left, datum? stack ⟨tokens, none⟩ = .ok (some datum) left ↔
    ∃ taken rest, tokens = taken ++ rest ∧ Derives taken datum ∧ left = ⟨rest, none⟩
  none_iff : ∀ left, datum? stack ⟨tokens, none⟩ = .ok none left ↔
    tokens = [] ∧ left = ⟨[], none⟩
  error_iff : (∃ cause left, datum? stack ⟨tokens, none⟩ = .error cause left ∧
      cause.isOfText = true) ↔
    tokens ≠ [] ∧ ¬∃ taken rest datum, tokens = taken ++ rest ∧ Derives taken datum

/-! ### Stacks that hold -/

theorem endsPlainly_of_none (tokens : List Token) : TokenStream.EndsPlainly ⟨tokens, none⟩ :=
  nofun

/-- A stack that holds may be taken for one with any amount of room more. -/
theorem datum?_eq_withRoom (holds : ¬RunsOut stack tokens) (more : Nat) :
    datum? stack ⟨tokens, none⟩ = datum? (.withRoom (stack.room + more)) ⟨tokens, none⟩ := by
  have fits : stack.FitsIn (.withRoom (stack.room + more)) more := ⟨rfl, nofun⟩
  obtain same | exhausted := (datum?_alike fits ⟨tokens, none⟩ (endsPlainly_of_none tokens)).1
  · exact same
  · exact absurd exhausted holds

/-- A datum that some tokens at the beginning denote is read, or there are no tokens, or reading
fails. -/
theorem datum?_withRoom_cases (room : Nat) (lexemes : ∀ token ∈ tokens, token.IsLexeme) :
    (∃ taken rest datum, tokens = taken ++ rest ∧ Derives taken datum ∧
      datum? (.withRoom room) ⟨tokens, none⟩ = .ok (some datum) ⟨rest, none⟩) ∨
    (tokens = [] ∧ datum? (.withRoom room) ⟨tokens, none⟩ = .ok none ⟨[], none⟩) ∨
    ∃ cause left, datum? (.withRoom room) ⟨tokens, none⟩ = .error cause left ∧
      (tokens.length ≤ room → cause ≠ .stackExhausted) := by
  cases tokens with
  | nil => exact .inr (.inl ⟨rfl, rfl⟩)
  | cons token more =>
    have recognized := readFrom_recognized room room token more lexemes
    rw [datum?_cons]
    cases result : readFrom (.withRoom room) room token ⟨token :: more, none⟩ with
    | ok datum left =>
      rw [result] at recognized
      obtain ⟨taken, rest, rfl, same, derives⟩ := recognized
      exact .inl ⟨taken, rest, datum, same, derives, Routine.bind_ok result⟩
    | error cause left =>
      rw [result] at recognized
      exact .inr (.inr ⟨cause, left, Routine.bind_error result, recognized⟩)

/-- A stack with room for a nested call for each token holds. -/
theorem not_runsOut_withRoom {room : Nat} (lexemes : ∀ token ∈ tokens, token.IsLexeme)
    (enough : tokens.length ≤ room) : ¬RunsOut (.withRoom room) tokens := by
  rintro ⟨left, exhausted⟩
  rcases datum?_withRoom_cases room lexemes with
    ⟨taken, rest, datum, -, -, read⟩ | ⟨-, read⟩ | ⟨cause, other, failed, not_exhausted⟩
  · rw [exhausted] at read
    cases read
  · rw [exhausted] at read
    cases read
  · rw [exhausted] at failed
    cases failed
    exact not_exhausted enough rfl

theorem datum?_cases (lexemes : ∀ token ∈ tokens, token.IsLexeme)
    (holds : ¬RunsOut stack tokens) :
    (∃ taken rest datum, tokens = taken ++ rest ∧ Derives taken datum ∧
      datum? stack ⟨tokens, none⟩ = .ok (some datum) ⟨rest, none⟩) ∨
    (tokens = [] ∧ datum? stack ⟨tokens, none⟩ = .ok none ⟨[], none⟩) ∨
    ∃ cause left, datum? stack ⟨tokens, none⟩ = .error cause left ∧ cause.isOfText = true := by
  have same := datum?_eq_withRoom holds 0
  rcases datum?_withRoom_cases (stack.room + 0) lexemes with read | read | ⟨cause, left, failed, -⟩
  · exact .inl (same ▸ read)
  · exact .inr (.inl (same ▸ read))
  · have ends := (datum?_alike (.refl stack) ⟨tokens, none⟩ (endsPlainly_of_none tokens)).2
    rw [same, failed] at ends
    refine .inr (.inr ⟨cause, left, same ▸ failed, ends.resolve_left ?_⟩)
    rintro rfl
    exact holds ⟨left, same ▸ failed⟩

theorem datum?_of_derives_append {taken rest : List Token} {datum : Datum}
    (derives : Derives taken datum) (holds : ¬RunsOut stack (taken ++ rest)) :
    datum? stack ⟨taken ++ rest, none⟩ = .ok (some datum) ⟨rest, none⟩ := by
  rw [datum?_eq_withRoom holds datum.depth]
  exact datum?_of_derives derives (Nat.le_add_left _ _)

theorem datum?_nil (holds : ¬RunsOut stack []) :
    datum? stack ⟨[], none⟩ = .ok none ⟨[], none⟩ := by
  rw [datum?_eq_withRoom holds 0]
  rfl

/-- The reader accepts what the grammar says. -/
theorem accepts (lexemes : ∀ token ∈ tokens, token.IsLexeme) (holds : ¬RunsOut stack tokens) :
    Accepts stack tokens := by
  have cases := datum?_cases lexemes holds
  refine ⟨fun datum left => ⟨fun read => ?_, ?_⟩, fun left => ⟨fun read => ?_, ?_⟩, ?_, ?_⟩
  · rw [read] at cases
    rcases cases with ⟨taken, rest, found, same, derives, ⟨⟩⟩ | ⟨-, ⟨⟩⟩ | ⟨cause, after, ⟨⟩, -⟩
    exact ⟨taken, rest, same, derives, rfl⟩
  · rintro ⟨taken, rest, rfl, derives, rfl⟩
    exact datum?_of_derives_append derives holds
  · rw [read] at cases
    rcases cases with ⟨taken, rest, found, same, derives, ⟨⟩⟩ | ⟨empty, ⟨⟩⟩ | ⟨cause, after, ⟨⟩, -⟩
    exact ⟨empty, rfl⟩
  · rintro ⟨rfl, rfl⟩
    exact datum?_nil holds
  · rintro ⟨cause, left, failed, -⟩
    constructor
    · rintro rfl
      rw [datum?_nil holds] at failed
      cases failed
    · rintro ⟨taken, rest, datum, rfl, derives⟩
      rw [datum?_of_derives_append derives holds] at failed
      cases failed
  · rintro ⟨goes_on, none_denotes⟩
    rcases cases with ⟨taken, rest, datum, same, derives, -⟩ | ⟨empty, -⟩ | failed
    · exact absurd ⟨taken, rest, datum, same, derives⟩ none_denotes
    · exact absurd empty goes_on
    · exact failed

/-! ### Sources -/

theorem ofSource_eq {source : String} (complete : (Token.scan source).failure = none) :
    TokenStream.ofSource source = ⟨(Token.scan source).items, none⟩ := by
  rw [TokenStream.ofSource, ← complete]

/-- Where reading one datum does not run out of stack, reading the next one does not. -/
theorem not_runsOut_of_readSource {source : String}
    (complete : (Token.scan source).failure = none)
    (holds : readSource (single stack) source ≠ .error .stackExhausted) :
    ¬RunsOut stack (Token.scan source).items := by
  rintro ⟨left, exhausted⟩
  apply holds
  rw [readSource, ofSource_eq complete, single, Routine.bind_error exhausted]

theorem single_of_datum? {datum : Datum} {rest : List Token}
    (read : datum? stack ⟨tokens, none⟩ = .ok (some datum) ⟨rest, none⟩) :
    single stack ⟨tokens, none⟩ = match rest with
      | [] => .ok datum ⟨[], none⟩
      | token :: _ => refuse (.inputAfterDatum token.text) ⟨rest, none⟩ := by
  rw [single, Routine.bind_ok read]
  cases rest <;> rfl

/-- A source is read as the datum that all its tokens together denote. -/
theorem readSource_ok_iff {source : String} (complete : (Token.scan source).failure = none)
    (holds : readSource (single stack) source ≠ .error .stackExhausted) (datum : Datum) :
    readSource (single stack) source = .ok datum ↔ Derives (Token.scan source).items datum := by
  have lexemes : ∀ token ∈ (Token.scan source).items, token.IsLexeme :=
    fun _ => Token.isLexeme_of_mem_scan
  have held := not_runsOut_of_readSource complete holds
  rw [readSource, ofSource_eq complete]
  constructor
  · intro read
    rcases datum?_cases lexemes held with
      ⟨taken, rest, found, same, derives, next⟩ | ⟨-, next⟩ | ⟨cause, left, failed, -⟩
    · rw [single_of_datum? next] at read
      cases rest with
      | nil =>
        cases read
        rwa [same, List.append_nil]
      | cons token more => cases read
    · rw [single, Routine.bind_ok next] at read
      cases read
    · rw [single, Routine.bind_error failed] at read
      cases read
  · intro derives
    have next : datum? stack ⟨(Token.scan source).items ++ [], none⟩ =
        .ok (some datum) ⟨[], none⟩ :=
      datum?_of_derives_append derives (by rwa [List.append_nil])
    rw [List.append_nil] at next
    rw [single_of_datum? next]

theorem readSource_withRoom_ne {source : String} {room : Nat}
    (complete : (Token.scan source).failure = none)
    (enough : (Token.scan source).items.length ≤ room) :
    readSource (single (.withRoom room)) source ≠ .error .stackExhausted := by
  have lexemes : ∀ token ∈ (Token.scan source).items, token.IsLexeme :=
    fun _ => Token.isLexeme_of_mem_scan
  have holds := not_runsOut_withRoom lexemes enough
  rw [readSource, ofSource_eq complete]
  rcases datum?_cases lexemes holds with
    ⟨taken, rest, datum, -, -, next⟩ | ⟨-, next⟩ | ⟨cause, left, failed, ofText⟩
  · rw [single_of_datum? next]
    cases rest <;> nofun
  · rw [single, Routine.bind_ok next]
    nofun
  · rw [single, Routine.bind_error failed]
    rintro ⟨⟩
    cases ofText

/-- The reader accepts just the grammar. On every list of lexemes it takes some tokens at the
beginning and returns a datum if and only if they denote it. There is no datum just where there
are no tokens, and all else is an error in the text. No list of tokens begins with two data. A
source that is scanned to its end is read as a datum if and only if all its tokens together denote
it.

All this is said of stacks that are not used up, and a stack with room for a nested call for each
token is none that is. -/
theorem reads_exactly_grammar :
    (∀ tokens : List Token, (∀ token ∈ tokens, token.IsLexeme) →
      (∀ stack, ¬RunsOut stack tokens → Accepts stack tokens) ∧
      ∀ room, tokens.length ≤ room → ¬RunsOut (.withRoom room) tokens) ∧
    (∀ taken rest taken' rest' datum datum', taken ++ rest = taken' ++ rest' →
      Derives taken datum → Derives taken' datum' → taken = taken' ∧ datum = datum') ∧
    ∀ source, (Token.scan source).failure = none →
      (∀ stack, readSource (single stack) source ≠ .error .stackExhausted → ∀ datum,
        readSource (single stack) source = .ok datum ↔ Derives (Token.scan source).items datum) ∧
      ∀ room, (Token.scan source).items.length ≤ room →
        readSource (single (.withRoom room)) source ≠ .error .stackExhausted := by
  refine ⟨fun tokens lexemes => ⟨?_, ?_⟩, ?_, fun source complete => ⟨?_, ?_⟩⟩
  · intro stack holds
    exact accepts lexemes holds
  · intro room enough
    exact not_runsOut_withRoom lexemes enough
  · intro taken rest taken' rest' datum datum' same derives derives'
    exact derives.unique same derives'
  · intro stack holds datum
    exact readSource_ok_iff complete holds datum
  · intro room enough
    exact readSource_withRoom_ne complete enough

/-- A quoted list with a tail, and another datum that is left. -/
theorem reads_exactly_grammar_of_tail :
    datum? (.withRoom 8) ⟨(Token.scan "'(a . +1) #t").items, none⟩ =
      .ok (some (.list [.atom "quote", .dotted [.atom "a"] (.integer 1)]))
        ⟨[⟨.boolean, "#t"⟩], none⟩ := by
  have tokens : (Token.scan "'(a . +1) #t").items =
      .quoteMark :: .opening :: ([⟨.symbol, "a"⟩] ++ .dot :: ([⟨.symbol, "+1"⟩] ++ [.closing])) ++
        [⟨.boolean, "#t"⟩] := by cbv
  have atom : Grammar.Denotes ⟨.symbol, "a"⟩ (.atom "a") :=
    denotes_of_symbolDatum rfl
  have one : Grammar.Denotes ⟨.symbol, "+1"⟩ (.integer 1) :=
    denotes_of_symbolDatum rfl
  have derives : Derives
      (.quoteMark :: .opening :: ([⟨.symbol, "a"⟩] ++ .dot :: ([⟨.symbol, "+1"⟩] ++ [.closing])))
      (.list [.atom "quote", .dotted [.atom "a"] (.integer 1)]) :=
    .quoted (.dotted (.cons (.word atom) .nil) (List.cons_ne_nil _ _) (.word one))
  have lexemes : ∀ token ∈ (Token.scan "'(a . +1) #t").items, token.IsLexeme :=
    fun _ => Token.isLexeme_of_mem_scan
  have short : (Token.scan "'(a . +1) #t").items.length ≤ 8 := by
    rw [tokens]
    decide
  have holds := (reads_exactly_grammar.1 _ lexemes).2 8 short
  exact (((reads_exactly_grammar.1 _ lexemes).1 _ holds).some_iff _ _).mpr
    ⟨_, _, tokens, derives, rfl⟩

end Reader

end ScopedLisp
