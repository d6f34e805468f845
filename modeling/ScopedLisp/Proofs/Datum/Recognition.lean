import ScopedLisp.Proofs.Datum.Grammar
import ScopedLisp.Proofs.Datum.Printable
import ScopedLisp.Proofs.Datum.Stack

/-!
# The reader recognises the grammar

What the reader takes from the beginning of a stream denotes the datum that it returns, and where
some tokens at the beginning denote a datum, the reader takes them and returns it. It follows that
a list of tokens denotes one datum at most, and that it does so with no other list in front of it.

The reader needs room for as many nested calls as the datum is deep. Each call takes a token, so a
stack with as much room as there are tokens is never used up.
-/

namespace ScopedLisp

namespace Reader

open Grammar

/-! ### Words -/

/-- What a token that is a datum by itself denotes. -/
def wordDatum (token : Token) : Option (Except Failure Datum) :=
  match token.kind with
  | .symbol => some (symbolDatum token.text)
  | .boolean => some (.ok (booleanDatum token.text))
  | .character => some (characterDatum token.text)
  | .string => some (stringDatum token.text)
  | .quote | .openList | .closeList | .other _ => none

theorem afterMark_append (name : String) :
    String.ofList (("#\\" ++ name).toList.drop 2) = name := by
  rw [String.toList_append]
  exact String.ofList_toList

/-- A text between quotation marks is the string its body spells, or is refused for the defect of
that body. -/
theorem stringDatum_marked (body : List Char) :
    stringDatum (String.ofList ('\x22' :: (body ++ ['\x22']))) =
      match Literal.unescape body with
      | .ok cs => .ok (.string (String.ofList cs))
      | .error defect => .error (.malformedSource defect) := by
  have inside : ((String.ofList ('\x22' :: (body ++ ['\x22']))).toList.drop 1).dropLast = body := by
    rw [String.toList_ofList]
    exact List.dropLast_concat
  cases unescaped : Literal.unescape body <;> simp only [stringDatum, inside, unescaped]

/-- No numeral is the dot that marks a tail, so a numeral is never taken for it. -/
theorem IsNumeral.text_ne_dot {text : String} {sign : Int} {digits : List Nat}
    (numeral : IsNumeral text.toList sign digits) : text ≠ "." := by
  rintro rfl
  have literal := isLiteral_iff.mpr ⟨sign, digits, numeral⟩
  exact absurd literal (by decide)

/-- A token is read as what it denotes. -/
theorem wordDatum_of_denotes {token : Token} {datum : Datum} (denotes : Denotes token datum) :
    wordDatum token = some (.ok datum) := by
  cases denotes with
  | @integer text sign digits numeral short =>
    have literal := isLiteral_iff.mpr ⟨sign, digits, numeral⟩
    simp only [wordDatum, symbolDatum]
    rw [if_neg (IsNumeral.text_ne_dot numeral), if_pos literal, numeral.ofLiteral,
      if_neg (Nat.not_lt.mpr short)]
  | @atom text not_dot not_numeral =>
    have not_literal : ¬Text.Numeral.isLiteral text.toList = true := by
      intro literal
      obtain ⟨sign, digits, numeral⟩ := isLiteral_iff.mp literal
      exact not_numeral sign digits numeral
    simp only [wordDatum, symbolDatum]
    rw [if_neg not_dot, if_neg not_literal]
  | @boolean text value listed =>
    have read : ∀ entry ∈ [("#t", true), ("#true", true), ("#f", false), ("#false", false)],
        (entry.1 == "#t" || entry.1 == "#true") = entry.2 := by decide
    simp only [wordDatum, booleanDatum, read _ listed]
  | character c =>
    simp only [wordDatum, characterDatum, afterMark_append]
    rw [if_pos String.length_singleton]
  | @named name text c known lower =>
    have names : ∀ entry ∈ Literal.characterNames,
        entry.1.toList.length ≠ 1 ∧ Literal.characterNames.lookup entry.1 = some entry.2 := by
      decide
    obtain ⟨long, found⟩ := names _ known
    have same := congrArg List.length lower
    simp only [List.length_map] at same
    simp only [wordDatum, characterDatum, afterMark_append, Literal.characterOfName?, lower,
      String.ofList_toList, found]
    rw [if_neg (by rw [← String.length_toList, same]; exact long)]
  | string unescapes =>
    simp only [wordDatum, stringDatum_marked, unescapes.unescape]

/-- What a lexeme of the symbol kind is read as is what the grammar lets it denote: a numeral or a
symbol. -/
theorem denotes_of_symbolDatum {text : String} {datum : Datum}
    (read : symbolDatum text = .ok datum) : Denotes ⟨.symbol, text⟩ datum := by
  unfold symbolDatum at read
  split at read
  · cases read
  · next not_dot =>
    split at read
    · next literal =>
      obtain ⟨sign, digits, numeral⟩ := isLiteral_iff.mp literal
      rw [numeral.ofLiteral] at read
      split at read
      · next value same =>
        split at same
        · cases same
        · next short =>
          cases same
          cases read
          exact .integer numeral (Nat.not_lt.mp short)
      · cases read
    · next not_literal =>
      cases read
      refine .atom not_dot fun sign digits numeral => ?_
      exact not_literal (isLiteral_iff.mpr ⟨sign, digits, numeral⟩)

/-- What a character lexeme is read as is what the grammar lets it denote: a single code point or
one of the names. -/
theorem denotes_of_characterDatum {name : String} {datum : Datum}
    (read : characterDatum ("#\\" ++ name) = .ok datum) :
    Denotes ⟨.character, "#\\" ++ name⟩ datum := by
  simp only [characterDatum, afterMark_append] at read
  split at read
  · next single =>
    cases read
    rw [← String.length_toList, List.length_eq_one_iff] at single
    obtain ⟨c, single⟩ := single
    have same : name = String.singleton c := String.toList_inj.mp (by rw [single]; simp)
    rw [same]
    exact .character c
  · split at read
    · next c found =>
      cases read
      exact .named (Literal.mem_of_lookup found) (String.toList_ofList).symm
    · cases read

/-- A lexeme denotes what it is read as. -/
theorem denotes_of_wordDatum {token : Token} {datum : Datum} (lexeme : token.IsLexeme)
    (read : wordDatum token = some (.ok datum)) : Denotes token datum := by
  obtain ⟨kind, text⟩ := token
  cases kind with
  | symbol => exact denotes_of_symbolDatum (Option.some.inj read)
  | boolean =>
    cases read
    apply Denotes.boolean
    have listed : ∀ text ∈ ["#t", "#true", "#f", "#false"],
        (text, text == "#t" || text == "#true") ∈
          [("#t", true), ("#true", true), ("#f", false), ("#false", false)] := by decide
    exact listed text lexeme.boolean
  | character =>
    obtain ⟨name, -, spelled, -⟩ := lexeme.character
    have same : text = "#\\" ++ String.ofList name := by
      have marked : ("#\\" ++ String.ofList name).toList = '#' :: '\\' :: name := by
        simp only [String.toList_append, String.toList_ofList]
        rfl
      rw [← String.toList_inj, spelled, marked]
    subst same
    exact denotes_of_characterDatum (Option.some.inj read)
  | string =>
    obtain ⟨body, closed, spelled⟩ := lexeme.string
    have same : text = String.ofList ('\x22' :: (body ++ ['\x22'])) := by
      rw [← String.toList_inj, String.toList_ofList, spelled]
    subst same
    simp only [wordDatum, stringDatum_marked] at read
    split at read
    · next cs unescaped =>
      cases read
      exact .string (unescapes_of_unescape closed unescaped)
    · cases read
  | quote | openList | closeList | other name => cases read

/-- A word is only refused for what stands in its own text. -/
theorem wordDatum_failsOfTokens {token : Token} {result : Except Failure Datum}
    (word : wordDatum token = some result) : FailsWithin Failure.isOfTokens result := by
  unfold wordDatum at word
  split at word <;> cases word
  · exact symbolDatum_failsOfTokens _
  · exact .ok _
  · exact characterDatum_failsOfTokens _
  · exact stringDatum_failsOfTokens _

/-! ### Completeness -/

variable {total room : Nat} {failure : Option Failure} {more : List Token}

theorem peek_cons (token : Token) :
    peek ⟨token :: more, failure⟩ = .ok (some token) ⟨token :: more, failure⟩ :=
  rfl

theorem next_cons (token : Token) :
    next ⟨token :: more, failure⟩ = .ok (some token) ⟨more, failure⟩ :=
  rfl

theorem reach_withRoom (stream : TokenStream) :
    reach (.withRoom total) room stream = .ok () stream :=
  rfl

theorem next_ofExcept (token : Token) (result : Except Failure Datum) :
    (do let _ ← next; ofExcept result : Reader Datum) ⟨token :: more, failure⟩ =
      (ofExcept result : Reader Datum) ⟨more, failure⟩ :=
  Routine.bind_ok (next_cons token)

/-- At a word the reader does what the word alone decides, at any depth. -/
theorem readFrom_word {token : Token} {result : Except Failure Datum}
    (word : wordDatum token = some result) :
    readFrom (.withRoom total) (room + 1) token ⟨token :: more, failure⟩ =
      (ofExcept result : Reader Datum) ⟨more, failure⟩ := by
  obtain ⟨kind, text⟩ := token
  rw [readFrom, Routine.bind_ok (reach_withRoom _)]
  cases kind with
  | boolean =>
    cases word
    rfl
  | symbol | character | string =>
    cases word
    exact next_ofExcept _ _
  | quote | openList | closeList | other name => cases word

/-- At a quote mark the reader reads the next datum one level deeper and quotes it. -/
theorem readFrom_quoteMark (token : Token) : readFrom (.withRoom total) (room + 1) .quoteMark
    ⟨.quoteMark :: token :: more, failure⟩ =
      (do return (← readFrom (.withRoom total) room token).quoted : Reader Datum)
        ⟨token :: more, failure⟩ :=
  rfl

/-- At an opening parenthesis the reader gathers items, with as many rounds as there are tokens and
one more. -/
theorem readFrom_opening (items : List Token) :
    readFrom (.withRoom total) (room + 1) .opening ⟨.opening :: items, failure⟩ =
      readItems (readFrom (.withRoom total) room) (items.length + 1) [] ⟨items, failure⟩ :=
  rfl

/-- The datum is read from the tokens, whatever follows them, and the first of them neither closes
a list nor introduces a tail. -/
def ReadsBack (read : Token → Reader Datum) (tokens : List Token) (datum : Datum) : Prop :=
  ∃ token others, tokens = token :: others ∧ token.kind ≠ .closeList ∧ token ≠ Token.dot ∧
    ∀ more failure, read token ⟨token :: others ++ more, failure⟩ = .ok datum ⟨more, failure⟩

/-- A word that denotes a datum is read back as that datum. -/
theorem readsBack_of_denotes {token : Token} {datum : Datum} (denotes : Denotes token datum) :
    ReadsBack (readFrom (.withRoom total) (room + 1)) [token] datum := by
  have word := wordDatum_of_denotes denotes
  refine ⟨token, [], rfl, ?_, ?_, fun more failure => readFrom_word word⟩
  · intro closes
    rw [wordDatum, closes] at word
    cases word
  · rintro rfl
    cases word

section Lists

variable {read : Token → Reader Datum}

/-- A part that is read back as a datum adds the datum to the items in one round. -/
theorem readItems_step {tokens : List Token} {datum : Datum} (back : ReadsBack read tokens datum)
    (rounds : Nat) (before : List Datum) :
    readItems read (rounds + 1) before ⟨tokens ++ more, failure⟩ =
      readItems read rounds (datum :: before) ⟨more, failure⟩ := by
  obtain ⟨token, others, rfl, not_close, not_dot, reads⟩ := back
  rw [readItems, List.cons_append, Routine.bind_ok (peek_cons token)]
  simp only [if_neg not_close, if_neg not_dot]
  exact Routine.bind_ok (reads more failure)

/-- A closing parenthesis ends the list with the items so far. -/
theorem readItems_close (rounds : Nat) (before : List Datum) :
    readItems read (rounds + 1) before ⟨.closing :: more, failure⟩ =
      .ok (.list before.reverse) ⟨more, failure⟩ :=
  rfl

/-- A dot, a part that is read back, and a closing parenthesis end the list with a tail. There must
be an item before the dot. -/
theorem readItems_dot {tokens : List Token} {tail : Datum} (back : ReadsBack read tokens tail)
    (rounds : Nat) {before : List Datum} (some_items : before ≠ []) :
    readItems read (rounds + 1) before
        ⟨Token.dot :: (tokens ++ .closing :: more), failure⟩ =
      .ok (.dotted before.reverse tail) ⟨more, failure⟩ := by
  obtain ⟨token, others, rfl, not_close, -, reads⟩ := back
  have nonempty : ¬before.isEmpty = true := by rwa [List.isEmpty_iff]
  have not_closing : Token.dot.kind ≠ .closeList := nofun
  rw [readItems, Routine.bind_ok (peek_cons Token.dot)]
  simp only [if_neg not_closing, ↓reduceIte]
  rw [Routine.bind_ok (next_cons Token.dot), readTail, if_neg nonempty,
    List.cons_append, Routine.bind_ok (peek_cons token)]
  simp only [if_neg not_close]
  exact Routine.bind_ok (reads (.closing :: more) failure)

/-- The items are read from the tokens, one in each round. -/
def ItemsReadBack (read : Token → Reader Datum) (tokens : List Token) (items : List Datum) : Prop :=
  items.length ≤ tokens.length ∧ ∀ rounds before more failure,
    readItems read (rounds + items.length) before ⟨tokens ++ more, failure⟩ =
      readItems read rounds (items.reverse ++ before) ⟨more, failure⟩

theorem ItemsReadBack.nil : ItemsReadBack read [] [] :=
  ⟨Nat.le_refl 0, fun _ _ _ _ => rfl⟩

/-- A datum in front of items that are read back is read back with them. -/
theorem ItemsReadBack.cons {tokens more : List Token} {datum : Datum} {items : List Datum}
    (first : ReadsBack read tokens datum) (rest : ItemsReadBack read more items) :
    ItemsReadBack read (tokens ++ more) (datum :: items) := by
  obtain ⟨enough, reads⟩ := rest
  constructor
  · obtain ⟨token, others, rfl, -⟩ := first
    simp only [List.length_cons, List.length_append]
    omega
  · intro rounds before following failure
    rw [List.append_assoc, List.length_cons, ← Nat.add_assoc, readItems_step first, reads,
      List.reverse_cons, List.append_assoc, List.singleton_append]

/-- There are rounds enough for the items and for what follows them. -/
theorem ItemsReadBack.exists_rounds {tokens : List Token} {items : List Datum}
    (reads : ItemsReadBack read tokens items) (more : List Token) :
    ∃ rounds, (tokens ++ more).length + 1 = rounds + 1 + items.length := by
  have enough := reads.1
  rw [List.length_append]
  exact ⟨tokens.length + more.length - items.length, by omega⟩

end Lists

theorem depth_pos (datum : Datum) : 0 < datum.depth := by
  cases datum <;> simp [Datum.depth]

open Datum in
mutual

/-- Tokens that denote a datum are read as the datum on a stack with room for its depth. -/
theorem readsBack_of_derives {tokens : List Token} {datum : Datum} (derives : Derives tokens datum)
    {room : Nat} (deep : datum.depth ≤ room) :
    ReadsBack (readFrom (.withRoom total) room) tokens datum := by
  obtain ⟨room, rfl⟩ : ∃ less, room = less + 1 :=
    Nat.exists_eq_add_one_of_ne_zero (Nat.ne_zero_of_lt (Nat.lt_of_lt_of_le (depth_pos datum) deep))
  match derives with
  | .word denotes => exact readsBack_of_denotes denotes
  | @Derives.quoted _ quoted derives =>
    simp only [depth, depthAll] at deep
    obtain ⟨token, others, rfl, -, -, reads⟩ :=
      readsBack_of_derives derives (show quoted.depth ≤ room by omega)
    refine ⟨.quoteMark, token :: others, rfl, nofun, nofun, fun more failure => ?_⟩
    rw [List.cons_append, List.cons_append, readFrom_quoteMark]
    exact Routine.bind_ok (reads more failure)
  | .list derives =>
    rw [depth] at deep
    have all := itemsReadBack_of_derives derives (Nat.le_of_succ_le_succ deep)
    refine ⟨.opening, _, rfl, nofun, by decide, fun more failure => ?_⟩
    obtain ⟨rounds, enough⟩ := all.exists_rounds (.closing :: more)
    rw [List.cons_append, List.append_assoc, List.singleton_append, readFrom_opening, enough,
      all.2, List.append_nil, readItems_close, List.reverse_reverse]
  | .dotted derives some_items derives_tail =>
    rw [depth] at deep
    have shallow := Nat.max_le.mp (Nat.le_of_succ_le_succ deep)
    have all := itemsReadBack_of_derives derives shallow.1
    have back := readsBack_of_derives derives_tail shallow.2
    refine ⟨.opening, _, rfl, nofun, by decide, fun more failure => ?_⟩
    obtain ⟨rounds, enough⟩ := all.exists_rounds (.dot :: (_ ++ .closing :: more))
    simp only [List.cons_append, List.append_assoc, List.nil_append]
    rw [readFrom_opening, enough, all.2, List.append_nil,
      readItems_dot back _ (List.reverse_ne_nil_iff.mpr some_items), List.reverse_reverse]

/-- Parts that derive items are read back as these items, if no item is nested deeper than the room
allows. -/
theorem itemsReadBack_of_derives {tokens : List Token} {items : List Datum}
    (derives : DerivesAll tokens items) {room : Nat} (deep : depthAll items ≤ room) :
    ItemsReadBack (readFrom (.withRoom total) room) tokens items := by
  match derives with
  | .nil => exact .nil
  | .cons first rest =>
    rw [depthAll, Nat.max_le] at deep
    exact .cons (readsBack_of_derives first deep.1) (itemsReadBack_of_derives rest deep.2)

end

/-! ### Soundness -/

/-- Where these tokens stand in the stream, a datum is read from some of them at the beginning, as
`Accepts` says, or reading fails. It does not fail for lack of stack if there is room for a nested
call for each token. -/
def Recognized (room : Nat) (tokens : List Token) (Accepts : List Token → Datum → Prop) :
    EStateM.Result Failure TokenStream Datum → Prop
  | .ok datum left => ∃ taken rest, left = ⟨rest, none⟩ ∧ tokens = taken ++ rest ∧
      Accepts taken datum
  | .error cause _ => tokens.length ≤ room → cause ≠ .stackExhausted

namespace Recognized

variable {room : Nat} {tokens : List Token} {Accepts : List Token → Datum → Prop}

/-- A failure about the text is no lack of stack. -/
theorem of_text {cause : Failure} {left : TokenStream} (ofText : cause.isOfText = true) :
    Recognized room tokens Accepts (.error cause left) := by
  rintro - rfl
  cases ofText

theorem refuse (defect : SourceDefect) (stream : TokenStream) :
    Recognized room tokens Accepts (Reader.refuse defect stream) :=
  of_text rfl

/-- Reading goes on where a datum has been read. -/
theorem bind {first : Reader Datum} {next : Datum → Reader Datum} {stream : TokenStream}
    {Accepts' : List Token → Datum → Prop} (head : Recognized room tokens Accepts (first stream))
    (tail : ∀ taken rest datum, tokens = taken ++ rest → Accepts taken datum →
      Recognized room tokens Accepts' (next datum ⟨rest, none⟩)) :
    Recognized room tokens Accepts' ((first >>= next) stream) := by
  cases result : first stream with
  | ok datum left =>
    rw [result] at head
    obtain ⟨taken, rest, rfl, same, accepted⟩ := head
    rw [Routine.bind_ok result]
    exact tail taken rest datum same accepted
  | error cause left =>
    rw [result] at head
    rw [Routine.bind_error result]
    exact head

/-- Reading goes on behind some tokens. Each of them makes up for one more nested call. -/
theorem append {Accepts' : List Token → Datum → Prop} {before : List Token} {room' : Nat}
    {result : EStateM.Result Failure TokenStream Datum} (little : room' ≤ room + before.length)
    (later : Recognized room tokens Accepts' result)
    (joins : ∀ taken datum, Accepts' taken datum → Accepts (before ++ taken) datum) :
    Recognized room' (before ++ tokens) Accepts result := by
  cases result with
  | ok datum left =>
    obtain ⟨taken, rest, rfl, rfl, accepted⟩ := later
    exact ⟨before ++ taken, rest, rfl, (List.append_assoc _ _ _).symm, joins taken datum accepted⟩
  | error cause left =>
    intro enough
    rw [List.length_append] at enough
    exact later (by omega)

end Recognized

/-- Reading a datum that starts with a given lexeme. -/
def Recognizes (room : Nat) (read : Token → Reader Datum) : Prop :=
  ∀ token more, (∀ lexeme ∈ token :: more, lexeme.IsLexeme) →
    Recognized room (token :: more) Derives (read token ⟨token :: more, none⟩)

/-- The tokens are the rest of a list of which `before` have been read, latest first. -/
def EndsList (before : List Datum) (tokens : List Token) (datum : Datum) : Prop :=
  (∃ taken items, tokens = taken ++ [.closing] ∧ DerivesAll taken items ∧
    datum = .list (before.reverse ++ items)) ∨
  ∃ taken items last tail, tokens = taken ++ .dot :: (last ++ [.closing]) ∧
    DerivesAll taken items ∧ before.reverse ++ items ≠ [] ∧ Derives last tail ∧
    datum = .dotted (before.reverse ++ items) tail

/-- An item in front moves from the tokens to the items gathered before them. -/
theorem EndsList.cons {before : List Datum} {first tokens : List Token} {item datum : Datum}
    (derives : Derives first item) (ends : EndsList (item :: before) tokens datum) :
    EndsList before (first ++ tokens) datum := by
  have moved (items : List Datum) :
      (item :: before).reverse ++ items = before.reverse ++ item :: items := by
    rw [List.reverse_cons, List.append_assoc, List.singleton_append]
  rcases ends with ⟨taken, items, rfl, all, rfl⟩ |
    ⟨taken, items, last, tail, rfl, all, some, ends, rfl⟩
  · refine .inl ⟨first ++ taken, item :: items, ?_, .cons derives all, ?_⟩
    · rw [List.append_assoc]
    · rw [moved]
  · refine .inr ⟨first ++ taken, item :: items, last, tail, ?_, .cons derives all, ?_, ends, ?_⟩
    · rw [List.append_assoc]
    · exact moved items ▸ some
    · rw [moved]

/-- What ends a list with nothing gathered before is the rest of a list behind its parenthesis. -/
theorem EndsList.derives {tokens : List Token} {datum : Datum} (ends : EndsList [] tokens datum) :
    Derives (.opening :: tokens) datum := by
  rcases ends with ⟨taken, items, rfl, all, rfl⟩ |
    ⟨taken, items, last, tail, rfl, all, some, ends, rfl⟩
  · exact .list all
  · exact .dotted all some ends

/-- A closing parenthesis has only one text. -/
theorem closing_of_isLexeme {token : Token} (lexeme : token.IsLexeme)
    (closes : token.kind = .closeList) : token = .closing := by
  obtain ⟨kind, text⟩ := token
  cases closes
  rw [lexeme.closeList]
  rfl

section Lists

variable {read : Token → Reader Datum} {room : Nat}

/-- What the reader takes behind a dot is one datum and a closing parenthesis. -/
theorem readTail_recognized (reads : Recognizes room read) {before : List Datum}
    {tokens : List Token} (lexemes : ∀ token ∈ tokens, token.IsLexeme) :
    Recognized room tokens
      (fun taken datum => ∃ last tail, taken = last ++ [.closing] ∧ before ≠ [] ∧
        Derives last tail ∧ datum = .dotted before.reverse tail)
      (readTail read before ⟨tokens, none⟩) := by
  unfold readTail
  split
  · exact .refuse _ _
  · next some_items =>
    cases tokens with
    | nil => exact .refuse _ _
    | cons token more =>
      rw [Routine.bind_ok (peek_cons token)]
      dsimp only
      split
      · exact .refuse _ _
      · refine (reads token more lexemes).bind fun last rest tail same derives => ?_
        cases rest with
        | nil => exact .refuse _ _
        | cons closing rest =>
          rw [Routine.bind_ok (peek_cons closing)]
          by_cases closes : closing.kind = .closeList
          · have lexeme : closing.IsLexeme := by
              apply lexemes
              rw [same]
              exact List.mem_append_right last List.mem_cons_self
            obtain rfl := closing_of_isLexeme lexeme closes
            refine ⟨last ++ [.closing], rest, rfl, ?_, last, tail, rfl, ?_, derives, rfl⟩
            · rw [same, List.append_assoc, List.singleton_append]
            · rintro rfl
              exact some_items rfl
          · obtain ⟨kind, text⟩ := closing
            cases kind with
            | closeList => exact absurd rfl closes
            | _ => exact .refuse _ _

/-- What the reader takes inside a list is the rest of a list, whatever number of rounds it is
given. -/
theorem readItems_recognized (reads : Recognizes room read) (rounds : Nat) {before : List Datum}
    {tokens : List Token} (lexemes : ∀ token ∈ tokens, token.IsLexeme) :
    Recognized room tokens (EndsList before) (readItems read rounds before ⟨tokens, none⟩) := by
  induction rounds generalizing before tokens with
  | zero => exact .refuse _ _
  | succ rounds ih =>
    cases tokens with
    | nil => exact .refuse _ _
    | cons token more =>
      have later : ∀ token ∈ more, token.IsLexeme := fun other member =>
        lexemes other (List.mem_cons_of_mem _ member)
      rw [readItems, Routine.bind_ok (peek_cons token)]
      dsimp only
      split
      · next closes =>
        obtain rfl := closing_of_isLexeme (lexemes token List.mem_cons_self) closes
        refine ⟨[.closing], more, rfl, rfl, .inl ⟨[], [], rfl, .nil, ?_⟩⟩
        rw [List.append_nil]
      · split
        · next dot =>
          subst dot
          rw [Routine.bind_ok (next_cons Token.dot)]
          change Recognized room ([Token.dot] ++ more) _ _
          refine (readTail_recognized reads later).append (Nat.le_add_right _ _) ?_
          rintro _ _ ⟨last, tail, rfl, some_items, derives, rfl⟩
          refine .inr ⟨[], [], last, tail, rfl, .nil, ?_, derives, ?_⟩
          · rw [List.append_nil]
            exact List.reverse_ne_nil_iff.mpr some_items
          · rw [List.append_nil]
        · refine (reads token more lexemes).bind fun first rest item same derives => ?_
          rw [same] at lexemes ⊢
          have others : ∀ token ∈ rest, token.IsLexeme := fun other member =>
            lexemes other (List.mem_append_right first member)
          exact (ih others).append (Nat.le_add_right _ _) fun taken datum ends => ends.cons derives

end Lists

/-- What the reader takes denotes what it returns. The induction is on the room that is left. -/
theorem readFrom_recognized (total room : Nat) :
    Recognizes room (readFrom (.withRoom total) room) := by
  induction room with
  | zero =>
    intro token more _ few
    exact absurd few (Nat.not_succ_le_zero _)
  | succ room ih =>
    intro token more lexemes
    obtain ⟨lexeme, later⟩ := List.forall_mem_cons.mp lexemes
    cases word : wordDatum token with
    | some result =>
      rw [readFrom_word word]
      cases result with
      | ok datum =>
        exact ⟨[token], more, rfl, rfl, .word (denotes_of_wordDatum lexeme word)⟩
      | error cause =>
        exact .of_text (Failure.isOfText_of_isOfTokens (wordDatum_failsOfTokens word cause rfl))
    | none =>
      obtain ⟨kind, text⟩ := token
      cases kind with
      | symbol | boolean | character | string => cases word
      | other name => exact lexeme.kind_ne_other.elim
      | closeList => exact .refuse _ _
      | quote =>
        obtain rfl := lexeme.quote
        cases more with
        | nil => exact .refuse _ _
        | cons first others =>
          have inner : Recognized room (first :: others)
              (fun taken datum => ∃ quoted : Datum, Derives taken quoted ∧ datum = quoted.quoted)
              ((do return (← readFrom (.withRoom total) room first).quoted : Reader Datum)
                ⟨first :: others, none⟩) :=
            (ih first others later).bind fun taken rest quoted same derives =>
              ⟨taken, rest, rfl, same, quoted, derives, rfl⟩
          -- the mark is a token itself, which makes up for the level it takes
          change Recognized (room + 1) ([Token.quoteMark] ++ first :: others) Derives _
          refine inner.append (Nat.le_refl _) ?_
          rintro taken _ ⟨quoted, derives, rfl⟩
          exact .quoted derives
      | openList =>
        obtain rfl := lexeme.openList
        change Recognized (room + 1) ([Token.opening] ++ more) Derives _
        refine .append (Nat.le_refl _) (readItems_recognized ih _ later) ?_
        exact fun taken datum ends => ends.derives

/-! ### The next datum -/

/-- With a token left, the next datum is the one that begins there. -/
theorem datum?_cons (token : Token) :
    datum? (.withRoom room) ⟨token :: more, failure⟩ =
      (do return some (← readFrom (.withRoom room) room token) : Reader (Option Datum))
        ⟨token :: more, failure⟩ :=
  rfl

/-- Tokens that derive a datum are taken as the next datum, and what follows them is left. -/
theorem datum?_of_derives {tokens : List Token} {datum : Datum} (derives : Derives tokens datum)
    (deep : datum.depth ≤ room) :
    datum? (.withRoom room) ⟨tokens ++ more, failure⟩ = .ok (some datum) ⟨more, failure⟩ := by
  obtain ⟨token, others, rfl, -, -, reads⟩ := readsBack_of_derives derives deep
  rw [List.cons_append, datum?_cons]
  exact Routine.bind_ok (reads more failure)

/-- Tokens that derive a datum and are all there is are read as the only datum. -/
theorem single_of_derives {tokens : List Token} {datum : Datum} (derives : Derives tokens datum)
    (deep : datum.depth ≤ room) :
    single (.withRoom room) ⟨tokens, none⟩ = .ok datum ⟨[], none⟩ := by
  have found : datum? (.withRoom room) ⟨tokens ++ [], none⟩ = .ok (some datum) ⟨[], none⟩ :=
    datum?_of_derives derives deep
  rw [List.append_nil] at found
  exact (Routine.bind_ok found).trans rfl

end Reader

end ScopedLisp
