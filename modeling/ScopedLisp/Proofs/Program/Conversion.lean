import ScopedLisp.Proofs.Datum.Building
import ScopedLisp.Proofs.Datum.Spelling
import ScopedLisp.Proofs.Program.Exhaustion
import ScopedLisp.Proofs.Program.Reachable
import ScopedLisp.Proofs.Program.Regime

/-!
# Numbers of too many digits

Whatever a program does, it fails with a mistake of its own, which a host is expected to report.
There is one exception. No number of more than `digitLimit` digits is converted between text and
integer, and this failure is none of the program's mistakes. A program meets it only where it
contains such a numeral, or where it has computed such a number.
-/

namespace ScopedLisp

open Routine

namespace Failure

/-- The failure is a limit or a misuse on the side of the host that has nothing to do with its stack
or with the links of the heap. -/
def isMisuse : Failure → Bool
  | .tooManyDigits | .notShown _ | .notADatum _ | .nameTaken _ _ | .badSetting _ => true
  | _ => false

variable {failure : Failure}

theorem isMisuse_of_isOfCalls (ofCalls : failure.isOfCalls = true) : failure.isMisuse = false := by
  cases failure with
  | tooManyDigits | notShown _ | notADatum _ | nameTaken _ _ | badSetting _ => cases ofCalls
  | _ => rfl

theorem family_eq_program (safe : failure.isSafe = true) (stack_left : failure ≠ .stackExhausted)
    (no_misuse : failure.isMisuse = false) : failure.family = .program := by
  cases failure with
  | unknownHandle _ _ | scopeUnderflow _ | notAPair _ | endlessWalk => cases safe
  | stackExhausted => exact absurd rfl stack_left
  | tooManyDigits | notShown _ | notADatum _ | nameTaken _ _ | badSetting _ => cases no_misuse
  | _ => rfl

end Failure

/-- The token is an integer literal of too many digits to be converted. -/
def Token.IsOverlong (token : Token) : Prop :=
  token.kind = .symbol ∧ ∃ sign digits, Grammar.IsNumeral token.text.toList sign digits ∧
    Text.digitLimit < digits.length

theorem Heap.Extends.hasWide {heap later : Heap} (grown : heap.Extends later)
    (wide : heap.hasWide = true) : later.hasWide = true := by
  obtain ⟨i, below, wide⟩ := Array.any_eq_true.mp wide
  obtain ⟨bound, same⟩ := Array.getElem?_eq_some_iff.mp
    (grown.records (Array.getElem?_eq_getElem below))
  exact Array.any_eq_true.mpr ⟨i, bound, same ▸ wide⟩

/-- The failure is no misuse, or it is that a number has too many digits, and there is one: in the
text that is read, if `overlong` holds, or else in the store. -/
def Failure.Explained (overlong : Prop) (store : Store) (failure : Failure) : Prop :=
  failure.isMisuse = false ∨ failure = .tooManyDigits ∧ (overlong ∨ store.heap.hasWide = true)

/-- Evaluation has no other failures, whatever the heap holds. -/
theorem regime_explained (words : Vocabulary) (overlong : Prop) :
    Regime words (fun _ => True) (fun _ => True) (Failure.Explained overlong) where
  plain _ _ := trivial
  sequence _ := trivial
  offered _ _ := trivial
  form {name failure} _ missing store := by
    have unregistered : failure = .unsupportedForm name (.unregistered .specialForm) := by
      unfold Vocabulary.form at missing
      split at missing <;> cases missing
      rfl
    rw [unregistered]
    exact .inl rfl
  operator {name failure} _ missing store := by
    have unregistered : failure = .unsupportedForm name (.unregistered .operator) := by
      unfold Vocabulary.operator at missing
      split at missing <;> cases missing
      rfl
    rw [unregistered]
    exact .inl rfl
  calls ofCalls _ := .inl (Failure.isMisuse_of_isOfCalls ofCalls)
  digits wide := .inr ⟨rfl, .inr wide⟩
  grows grown explained := by
    obtain no_misuse | ⟨rfl, overlong | wide⟩ := explained
    · exact .inl no_misuse
    · exact .inr ⟨rfl, .inl overlong⟩
    · exact .inr ⟨rfl, .inr (grown.heap.hasWide wide)⟩

/-! ### Reading -/

namespace Reader

open Grammar

theorem isNumeral_of_symbolDatum {text : String}
    (refused : symbolDatum text = .error .tooManyDigits) :
    ∃ sign digits, IsNumeral text.toList sign digits ∧ Text.digitLimit < digits.length := by
  unfold symbolDatum at refused
  split at refused
  · cases refused
  · split at refused
    · next literal =>
      obtain ⟨sign, digits, numeral⟩ := isLiteral_iff.mp literal
      refine ⟨sign, digits, numeral, ?_⟩
      rw [numeral.ofLiteral] at refused
      by_contra short
      rw [if_neg short] at refused
      cases refused
    · cases refused

/-- A word is refused because of its text, be it a numeral of too many digits or not. -/
theorem refused_cases {token : Token} {failure : Failure}
    (refused : wordDatum token = some (.error failure)) :
    failure.isMisuse = false ∨ failure = .tooManyDigits ∧ token.IsOverlong := by
  obtain ⟨kind, text⟩ := token
  cases kind with
  | symbol =>
    have same := Option.some.inj refused
    have ofTokens := symbolDatum_failsOfTokens text failure same
    cases failure with
    | tooManyDigits => exact .inr ⟨rfl, rfl, isNumeral_of_symbolDatum same⟩
    | malformedSource defect => exact .inl rfl
    | _ => cases ofTokens
  | character =>
    have same := Option.some.inj refused
    unfold characterDatum at same
    dsimp only at same
    split at same
    · cases same
    · split at same <;> cases same
      exact .inl rfl
  | string =>
    have same := Option.some.inj refused
    unfold stringDatum at same
    split at same <;> cases same
    exact .inl rfl
  | boolean | quote | openList | closeList | other _ => cases refused

theorem wordDatum_of_isOverlong {token : Token} (overlong : token.IsOverlong) :
    wordDatum token = some (.error .tooManyDigits) := by
  obtain ⟨symbol, sign, digits, numeral, long⟩ := overlong
  have literal := isLiteral_iff.mpr ⟨sign, digits, numeral⟩
  simp only [wordDatum, symbol, symbolDatum]
  rw [if_neg (IsNumeral.text_ne_dot numeral), if_pos literal, numeral.ofLiteral, if_pos long]

theorem datum?_of_isOverlong {token : Token} (overlong : token.IsOverlong) (room : Nat)
    (more : List Token) (failure : Option Failure) :
    datum? (.withRoom (room + 1)) ⟨token :: more, failure⟩ =
      .error .tooManyDigits ⟨more, failure⟩ := by
  have read : readFrom (.withRoom (room + 1)) (room + 1) token ⟨token :: more, failure⟩ =
      .error .tooManyDigits ⟨more, failure⟩ :=
    readFrom_word (wordDatum_of_isOverlong overlong)
  rw [datum?_cons]
  exact Routine.bind_error read

/-- The failures of reading these tokens. -/
def Refusal (tokens : List Token) (failure : Failure) : Prop :=
  failure.isMisuse = false ∨ failure = .tooManyDigits ∧ ∃ token ∈ tokens, token.IsOverlong

theorem Refusal.explained {tokens : List Token} {failure : Failure}
    (refusal : Refusal tokens failure) (store : Store) :
    failure.Explained (∃ token ∈ tokens, token.IsOverlong) store :=
  refusal.imp id fun ⟨same, overlong⟩ => ⟨same, .inl overlong⟩

/-- What is read contains no values of the embedding program. -/
theorem building_admitted (tokens : List Token) :
    Building (· ∈ tokens) (Refusal tokens) fun _ datum =>
      datum.Admitted (Failure.Explained (∃ token ∈ tokens, token.IsOverlong)) where
  malformed _ := .inl rfl
  exhausted := .inl rfl
  refused {token _} member refused :=
    (refused_cases refused).imp id fun ⟨same, overlong⟩ => ⟨same, token, member, overlong⟩
  word _ word := Datum.everyLeaf_of_isWord (isWord_of_wordDatum word)
    fun not_foreign value same => absurd same (not_foreign value)
  quoted inner := ⟨nofun, inner, trivial⟩
  list inner := Datum.everyLeafOfAll_iff.mpr inner
  dotted inner last := ⟨Datum.everyLeafOfAll_iff.mpr inner, last⟩

theorem readsWithin_explained (host : Host) (tokens : List Token) :
    ReadsWithin host (Failure.Explained (∃ token ∈ tokens, token.IsOverlong))
      fun stream => stream.Offers (· ∈ tokens) (Refusal tokens) where
  datum {stream left datum} offers read := by
    have reads := (building_admitted tokens).datum? host.reading stream offers
    rw [read] at reads
    exact ⟨reads.1, reads.2 datum rfl⟩
  failure {stream left failure} offers failed := by
    have permitted := (building_admitted tokens).datum? host.reading stream offers
    rw [failed] at permitted
    exact .inr permitted.explained

theorem offers_ofSource (source : String) :
    (TokenStream.ofSource source).Offers (· ∈ (Token.scan source).items)
      (Refusal (Token.scan source).items) where
  tokens _ member := member
  failure _ waits := by
    obtain ⟨defect, rfl⟩ := Token.exists_of_scanFrom_failure waits
    exact .inl rfl

end Reader

/-- Digits are one token. -/
theorem Token.scan_digits {digits : List Nat} (nonempty : digits ≠ [])
    (small : ∀ digit ∈ digits, digit < 10) :
    let text := String.ofList (digits.map Nat.digitChar)
    scan text = ⟨[⟨.symbol, text⟩], none⟩ := by
  intro text
  have spelled : text.toList = digits.map Nat.digitChar := String.toList_ofList
  have symbol : Lexeme.IsSymbol text.toList := by
    rw [spelled]
    refine Datum.isSymbol_of_digits (fun empty => nonempty (List.map_eq_nil_iff.mp empty)) ?_
    intro c member
    obtain ⟨digit, listed, rfl⟩ := List.mem_map.mp member
    exact .inr ⟨digit, small digit listed, rfl⟩
  have delimited : Delimited [] := by
    intro c member
    cases member
  have scanned := ScansTo.nil.symbol symbol delimited 0
  rw [List.append_nil] at scanned
  exact scanned

theorem Token.isOverlong_digits {digits : List Nat} (long : Text.digitLimit < digits.length)
    (small : ∀ digit ∈ digits, digit < 10) :
    Token.IsOverlong ⟨.symbol, String.ofList (digits.map Nat.digitChar)⟩ := by
  refine ⟨rfl, 1, digits, ?_, long⟩
  rw [String.toList_ofList]
  refine .unsigned ⟨fun empty => ?_, ?_⟩
  · rw [List.map_eq_nil_iff.mp empty] at long
    cases long
  · rw [List.map_map]
    exact List.map_congr_left fun digit listed =>
      Text.Numeral.digitValue?_digitChar digit (small digit listed)

/-! ### Evaluating -/

variable {session : Session} {failure : Failure}

theorem explained_of_evaluateSource {host : Host} {source : String} (session : Session)
    (failed : (evaluateSource host source).failure? session = some failure) :
    failure.Explained (∃ token ∈ (Token.scan source).items, token.IsOverlong)
      ((evaluateSource host source).after session).store := by
  have law := regime_explained session.vocabulary
    (∃ token ∈ (Token.scan source).items, token.IsOverlong)
  have upholds := Upholds.evaluateSource law (fun _ => trivial)
    (Reader.readsWithin_explained host (Token.scan source).items) (Reader.offers_ofSource source)
  exact upholds.permits ⟨rfl, fun _ _ => trivial⟩ failed

/-- A source text that is evaluated in a well-formed session fails with a mistake of the program,
unless a number has too many digits. -/
theorem Session.WellFormed.family_of_evaluateSource (wf : session.WellFormed) {host : Host}
    {source : String} (failed : (evaluateSource host source).failure? session = some failure) :
    failure.family = .program ∨
      failure = .tooManyDigits ∧ ((∃ token ∈ (Token.scan source).items, token.IsOverlong) ∨
        ((evaluateSource host source).after session).store.heap.hasWide = true) := by
  have fits : host.FitsIn host := ⟨⟨0, .refl _⟩, 0, .refl _⟩
  have safe := (evaluateSource_safe wf host source).after.2 failure failed
  have settles := (evaluateSource_settlesAlike fits wf.entered source).1
  obtain no_misuse | ⟨same, wide⟩ := explained_of_evaluateSource session failed
  · refine .inl (Failure.family_eq_program safe ?_ no_misuse)
    rintro rfl
    obtain ⟨left, ended⟩ := failure?_eq_some_iff.mp failed
    rw [ended] at settles
    exact settles.2.1 rfl
  · exact .inr ⟨same, wide⟩

/-- A program is not evaluated where a numeral of too many digits is next. -/
theorem evaluateSource_of_isOverlong {host : Host} {room : Nat}
    (roomy : host.reading = .withRoom (room + 1)) {source : String} {token : Token}
    {more : List Token} {waiting : Option Failure}
    (scanned : Token.scan source = ⟨token :: more, waiting⟩) (overlong : token.IsOverlong)
    (session : Session) :
    evaluateSource host source session = .error .tooManyDigits session := by
  have read : Reader.datum? host.reading ⟨token :: more, waiting⟩ =
      .error .tooManyDigits ⟨more, waiting⟩ := by
    rw [roomy]
    exact Reader.datum?_of_isOverlong overlong room more waiting
  have next : readNext host ⟨token :: more, waiting⟩ session = .error .tooManyDigits session := by
    rw [readNext_of_error read]
    rfl
  have reading : nil session = .ok session.store.heap.nil session := rfl
  unfold evaluateSource
  rw [TokenStream.ofSource, scanned, bind_ok reading]
  exact bind_error (bind_error next)

/-- An object is printed unless a number has too many digits. -/
theorem Store.WellFormed.render_eq_error {store : Store} {h : Handle} (wf : store.WellFormed)
    (held : store.Holds h) (failed : store.render h = .error failure) :
    failure = .tooManyDigits ∧ store.heap.hasWide = true := by
  have digits : FailsWithin (· == .tooManyDigits) (store.render h) :=
    wf.render_failsWithin rfl held
  have same := eq_of_beq (digits failure failed)
  subst same
  have permitted := store.permits_render h _ failed
  obtain ordinary | wide := Bool.or_eq_true_iff.mp permitted
  · cases ordinary
  · exact ⟨rfl, (Bool.and_eq_true_iff.mp wide).2⟩

end ScopedLisp
