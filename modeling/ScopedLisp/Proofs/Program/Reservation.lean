import ScopedLisp.Proofs.Datum.Stack
import ScopedLisp.Proofs.Program.Change
import ScopedLisp.Proofs.Program.Immutability
import ScopedLisp.Proofs.Program.Regime

/-!
# Reserved words stay reserved

A name is looked up among the reserved words when a datum is placed in the heap, never later, and
words may be reserved between one program and the next. What was placed as a reserved word is still
one whenever it comes to be evaluated: a name is never given a second purpose, so the words that the
heap holds are all explained by the vocabulary, now and at all later times. Unless words are
reserved on the way, no name that is reserved ever becomes a symbol, and so none is ever bound.
-/

namespace ScopedLisp

open Routine

/-- The failure is that a word of the heap stands for nothing. -/
def Failure.isUnregistered : Failure → Bool
  | .unsupportedForm _ (.unregistered _) => true
  | _ => false

theorem Failure.isUnregistered_of_isOfCalls {failure : Failure}
    (ofCalls : failure.isOfCalls = true) : failure.isUnregistered = false := by
  cases failure with
  | unsupportedForm form reason =>
    cases reason with
    | unregistered role => cases ofCalls
    | duplicateParameter _ | sequenceUnregistered => rfl
  | _ => rfl

theorem Failure.isUnregistered_of_isOfText {failure : Failure}
    (ofText : failure.isOfText = true) : failure.isUnregistered = false := by
  cases failure with
  | unsupportedForm _ _ => cases ofText
  | _ => rfl

theorem Unshown.isUnregistered_failure (reason : Unshown) :
    reason.failure.isUnregistered = false := by
  cases reason <;> rfl

/-! ### Vocabularies -/

namespace Vocabulary

/-- If the record is a reserved word, its name is reserved for what it says. -/
def Explains (words : Vocabulary) (record : Record) : Prop :=
  ∀ name, (record = .keyword name ∨ record = .operator name) → words.classify name = some record

/-- Every name that is reserved in `words` is reserved in `later` for the same purpose. -/
def Retains (words later : Vocabulary) : Prop :=
  ∀ name record, words.classify name = some record → later.classify name = some record

variable {words later : Vocabulary} {name : String} {record : Record}

theorem Retains.refl (words : Vocabulary) : words.Retains words := fun _ _ => id

theorem Retains.trans {mid : Vocabulary} (first : words.Retains mid) (second : mid.Retains later) :
    words.Retains later := fun name record reserved =>
    second name record (first name record reserved)

theorem Explains.mono (retains : words.Retains later) (explained : words.Explains record) :
    later.Explains record := fun name word => retains name record (explained name word)

theorem Explains.of_not_isWord (plain : record.isWord = false) : words.Explains record := by
  rintro name (rfl | rfl) <;> cases plain

/-- A reserved word names a special form, or failing that an operator. -/
theorem classify_cases (reserved : words.classify name = some record) :
    (words.forms.has name = true ∧ record = .keyword name) ∨
      (words.forms.has name = false ∧ words.operators.has name = true ∧
        record = .operator name) := by
  unfold classify at reserved
  split at reserved
  · next known =>
    cases reserved
    exact .inl ⟨known, rfl⟩
  · next unknown =>
    split at reserved <;> cases reserved
    exact .inr ⟨eq_false_of_ne_true unknown, ‹_›, rfl⟩

theorem classify_of_form (known : words.forms.has name = true) :
    words.classify name = some (.keyword name) := if_pos known

theorem classify_of_operator (unknown : words.forms.has name = false)
    (known : words.operators.has name = true) :
    words.classify name = some (.operator name) := by
  rw [classify, unknown, known]
  rfl

theorem isReserved_of_classify (free : words.classify name = none) :
    words.isReserved name = false := by
  cases form : words.forms.has name with
  | true => cases free.symm.trans (classify_of_form form)
  | false =>
    cases operator : words.operators.has name with
    | true => cases free.symm.trans (classify_of_operator form operator)
    | false => rw [isReserved, form, operator]; rfl

theorem explains_of_classify (reserved : words.classify name = some record) :
    words.Explains record := by
  intro other word
  rcases classify_eq reserved with rfl | rfl
  · obtain same | same := word
    · cases same
      exact reserved
    · cases same
  · obtain same | same := word
    · cases same
    · cases same
      exact reserved

theorem form_of_explains (explained : words.Explains (.keyword name)) :
    ∃ form, words.form name = .ok form := by
  obtain ⟨known, -⟩ | ⟨-, -, other⟩ := classify_cases (explained name (.inl rfl))
  · obtain ⟨form, found⟩ := Option.isSome_iff_exists.mp known
    exact ⟨form, by rw [Vocabulary.form, found]⟩
  · cases other

theorem operator_of_explains (explained : words.Explains (.operator name)) :
    ∃ operator, words.operator name = .ok operator := by
  obtain ⟨-, other⟩ | ⟨-, known, -⟩ := classify_cases (explained name (.inr rfl))
  · cases other
  · obtain ⟨operator, found⟩ := Option.isSome_iff_exists.mp known
    exact ⟨operator, by rw [Vocabulary.operator, found]⟩

/-- A form is registered under a name that names no operator, so no operator is hidden by it. -/
theorem retains_reserveForm {form : SpecialForm}
    (reserved : words.reserveForm name form = .ok later) : words.Retains later := by
  unfold reserveForm at reserved
  split at reserved
  · cases reserved
  · next free =>
    cases reserved
    intro other record known
    obtain ⟨known_form, rfl⟩ | ⟨no_form, known_operator, rfl⟩ := classify_cases known
    · apply classify_of_form
      rw [Assoc.has_put, known_form, Bool.or_true]
    · have other_name : name ≠ other := by
        rintro rfl
        exact free known_operator
      refine classify_of_operator ?_ known_operator
      rw [Assoc.has_put, no_form, decide_eq_false other_name, Bool.or_false]

/-- Registering an operator leaves the forms alone. -/
theorem retains_reserveOperator {operator : Operator}
    (reserved : words.reserveOperator name operator = .ok later) : words.Retains later := by
  unfold reserveOperator at reserved
  split at reserved
  · cases reserved
  · cases reserved
    intro other record known
    obtain ⟨known_form, rfl⟩ | ⟨no_form, known_operator, rfl⟩ := classify_cases known
    · exact classify_of_form known_form
    · refine classify_of_operator no_form ?_
      rw [Assoc.has_put, known_operator, Bool.or_true]

/-- Where all words are explained, no word of the heap stands for nothing. -/
theorem explaining (words : Vocabulary) :
    Regime words words.Explains (fun _ => True)
      fun _ failure => failure.isUnregistered = false where
  plain _ plain := .of_not_isWord plain
  sequence := explains_of_classify
  offered _ _ := trivial
  form explained missing := by
    obtain ⟨form, found⟩ := form_of_explains explained
    cases missing.symm.trans found
  operator explained missing := by
    obtain ⟨operator, found⟩ := operator_of_explains explained
    cases missing.symm.trans found
  calls ofCalls _ := Failure.isUnregistered_of_isOfCalls ofCalls
  digits _ := rfl
  grows _ permitted := permitted

end Vocabulary

/-! ### Sessions -/

/-- The later session arises from the earlier one by evaluating source texts and data on any
machines, whatever the outcome, and by reserving words, which may be refused. -/
inductive Session.Continues (session : Session) : Session → Prop where
  | refl : Continues session session
  | source {later : Session} (before : Continues session later) (host : Host) (source : String) :
      Continues session ((evaluateSource host source).after later)
  | datum {later : Session} (before : Continues session later) (host : Host) (datum : Datum) :
      Continues session ((evaluateDatum host datum).after later)
  | form {later : Session} (before : Continues session later) (name : String)
      (form : SpecialForm) : Continues session ((registerForm name form).after later)
  | operator {later : Session} (before : Continues session later) (name : String)
      (operator : Operator) : Continues session ((registerOperator name operator).after later)

/-- Every reserved word in the heap is explained by the vocabulary. -/
abbrev Session.Explained (session : Session) : Prop :=
  session.Under session.vocabulary session.vocabulary.Explains

namespace Upholds

variable {words : Vocabulary}

/-- Whatever is read, not being able to read it or to place it is no matter of reserved words. -/
theorem readsWithin (host : Host) :
    ReadsWithin host (fun _ failure => failure.isUnregistered = false)
      TokenStream.EndsPlainly where
  datum {stream left datum} plain found := by
    have ends := (Reader.datum?_alike (.refl host.reading) stream plain).2
    rw [found] at ends
    exact ⟨ends, Datum.everyLeaf_of_forall
      (fun _ _ _ _ => ⟨Unshown.isUnregistered_failure, fun _ => rfl⟩) datum⟩
  failure {stream left failure} plain found := by
    have ends := (Reader.datum?_alike (.refl host.reading) stream plain).2
    rw [found] at ends
    exact ends.imp id fun ofText _ => Failure.isUnregistered_of_isOfText ofText

theorem source_registered (host : Host) (source : String) :
    Upholds words words.Explains (fun _ failure => failure.isUnregistered = false) Handle
      (Routine.evaluateSource host source) (Routine.evaluateSource host source) :=
  evaluateSource words.explaining Vocabulary.explains_of_classify (readsWithin host)
    (Token.scanFrom_endsPlainly 0 source.toList)

theorem datum_registered (host : Host) (datum : Datum) :
    Upholds words words.Explains (fun _ failure => failure.isUnregistered = false) Handle
      (Routine.evaluateDatum host datum) (Routine.evaluateDatum host datum) :=
  evaluateDatum words.explaining Vocabulary.explains_of_classify host
    (Datum.everyLeaf_of_forall
      (fun _ _ _ _ => ⟨Unshown.isUnregistered_failure, fun _ => rfl⟩) datum)

end Upholds

/-- Reserving a word changes the vocabulary and the journal, or if it is refused, nothing. -/
theorem Routine.registerForm_after (name : String) (form : SpecialForm) (session : Session) :
    ∃ vocabulary journal, (registerForm name form).after session =
      { session with vocabulary, journal } ∧ session.vocabulary.Retains vocabulary := by
  unfold registerForm updateVocabulary reserveForm after
  simp only [bind, EStateM.bind, get_ok]
  cases reserved : session.vocabulary.reserveForm name form with
  | ok extended => exact ⟨extended, _, rfl, Vocabulary.retains_reserveForm reserved⟩
  | error failure => exact ⟨session.vocabulary, session.journal, rfl, .refl _⟩

theorem Routine.registerOperator_after (name : String) (operator : Operator) (session : Session) :
    ∃ vocabulary journal, (registerOperator name operator).after session =
      { session with vocabulary, journal } ∧ session.vocabulary.Retains vocabulary := by
  unfold registerOperator updateVocabulary reserveOperator after
  simp only [bind, EStateM.bind, get_ok]
  cases reserved : session.vocabulary.reserveOperator name operator with
  | ok extended => exact ⟨extended, _, rfl, Vocabulary.retains_reserveOperator reserved⟩
  | error failure => exact ⟨session.vocabulary, session.journal, rfl, .refl _⟩

namespace Session

variable {words : Vocabulary} {session later : Session}

/-- What is registered in a session keeps its words explained. -/
theorem Explained.register (explained : session.Explained) {vocabulary : Vocabulary}
    {journal : Array Event} (retains : session.vocabulary.Retains vocabulary)
    (left : later = { session with vocabulary, journal }) :
    later.Explained ∧ session.vocabulary.Retains later.vocabulary := by
  subst left
  exact ⟨⟨rfl, fun record member => (explained.records record member).mono retains⟩, retains⟩

theorem Explained.after {α : Type} {routine : Routine α} {permits : Store → Failure → Prop}
    (explained : session.Explained)
    (upholds : Upholds session.vocabulary session.vocabulary.Explains permits α routine routine) :
    (routine.after session).Explained ∧
      session.vocabulary.Retains (routine.after session).vocabulary := by
  have under : (routine.after session).Under session.vocabulary session.vocabulary.Explains :=
    (upholds session explained).left
  rw [Explained, under.vocabulary]
  exact ⟨under, .refl _⟩

/-- Words stay explained, and explained in the same way. -/
theorem Continues.explained (continued : session.Continues later) (explained : session.Explained) :
    later.Explained ∧ session.vocabulary.Retains later.vocabulary := by
  induction continued with
  | refl => exact ⟨explained, .refl _⟩
  | source _ host source ih =>
    obtain ⟨kept, retains⟩ := ih.1.after (Upholds.source_registered host source)
    exact ⟨kept, ih.2.trans retains⟩
  | datum _ host datum ih =>
    obtain ⟨kept, retains⟩ := ih.1.after (Upholds.datum_registered host datum)
    exact ⟨kept, ih.2.trans retains⟩
  | form _ name form ih =>
    obtain ⟨vocabulary, journal, left, retains⟩ := registerForm_after name form _
    obtain ⟨kept, retains⟩ := ih.1.register retains left
    exact ⟨kept, ih.2.trans retains⟩
  | operator _ name operator ih =>
    obtain ⟨vocabulary, journal, left, retains⟩ := registerOperator_after name operator _
    obtain ⟨kept, retains⟩ := ih.1.register retains left
    exact ⟨kept, ih.2.trans retains⟩

theorem start_explained (words : Vocabulary) (stepLimit : Int) :
    (Session.start words stepLimit).Explained := by
  refine ⟨rfl, fun record member => ?_⟩
  obtain rfl : record = .nil := Array.mem_singleton.mp member
  exact .of_not_isWord rfl

/-- What a name was found to be reserved for, it is found to be reserved for at all later times. -/
theorem Continues.internAtom (continued : session.Continues later) (explained : session.Explained)
    {name : String} {record : Record} (reserved : session.vocabulary.classify name = some record) :
    internAtom name later = .ok record later := by
  have still := (continued.explained explained).2 name record reserved
  have reading : inspect (fun _ words => .ok (words.classify name)) later =
      .ok (later.vocabulary.classify name) later := inspect_ok rfl
  rw [Routine.internAtom, bind_ok reading, still]
  rfl

/-- A reserved word that a name is lowered to is what the name is reserved for. -/
theorem classify_of_internAtom {name : String} {record : Record} {left : Session}
    (lowered : Routine.internAtom name session = .ok record left) (word : record.isWord = true) :
    session.vocabulary.classify name = some record := by
  have reading : inspect (fun _ words => .ok (words.classify name)) session =
      .ok (session.vocabulary.classify name) session := inspect_ok rfl
  rw [Routine.internAtom, bind_ok reading] at lowered
  cases reserved : session.vocabulary.classify name with
  | some known =>
    rw [reserved] at lowered
    cases lowered
    rfl
  | none =>
    rw [reserved] at lowered
    cases lowered
    cases word

/-! ### No symbol has a reserved name -/

/-- These words are reserved, and none of them is the name of a symbol. -/
def SparesWords (words : Vocabulary) (session : Session) : Prop :=
  session.vocabulary = words ∧ ∀ name ∈ session.store.symbols.names, words.isReserved name = false

/-- An evaluation makes no symbols and reserves no words. -/
theorem holdsOfChanges_sparesWords (words : Vocabulary) :
    HoldsOfChanges fun session later => session.SparesWords words → later.SparesWords words where
  refl _ := id
  trans first second spared := second (first spared)
  allocate _ _ := id
  write _ _ _ _ := id
  addFrame _ _ := id
  active _ _ := id
  journal _ _ := id
  countStep _ := id

/-- Only a name that is not reserved is made into a symbol. -/
theorem holdsOfPlacing_sparesWords (words : Vocabulary) :
    HoldsOfPlacing fun _ routine =>
      ∀ session, session.SparesWords words → (routine.after session).SparesWords words where
  pure _ _ := id
  bind head tail := fun session spared => after_bind
    (P := fun session later => session.SparesWords words → later.SparesWords words)
    (fun first second spared => second (first spared)) head tail session spared
  fail _ _ := id
  allocate _ _ := id
  allocateList _ _ _ := id
  insertText _ _ := id
  internAtom name session spared := by
    obtain ⟨reserved, free⟩ := spared
    have reading : inspect (fun _ words => .ok (words.classify name)) session =
        .ok (session.vocabulary.classify name) session := inspect_ok rfl
    unfold after
    rw [Routine.internAtom, bind_ok reading]
    cases found : session.vocabulary.classify name with
    | some record => exact ⟨reserved, free⟩
    | none =>
      refine ⟨reserved, fun other member => ?_⟩
      rcases Symbols.mem_intern.mp member with known | rfl
      · exact free other known
      · rw [← reserved]
        exact Vocabulary.isReserved_of_classify found

theorem LeadsTo.sparesWords (leads : session.LeadsTo later) (spared : session.SparesWords words) :
    later.SparesWords words := by
  have law := holdsOfChanges_sparesWords words
  have places (datum : Datum) : Leaves (fun session later => session.SparesWords words →
      later.SparesWords words) Handle (embed datum) (embed datum) :=
    (holdsOfPlacing_sparesWords words).embed datum
  induction leads with
  | refl => exact spared
  | source _ host source ih => exact Leaves.evaluateSource law places host source _ ih
  | datum _ host datum ih => exact Leaves.evaluateDatum law places host datum _ ih

/-- A symbol that was issued has a name that is not reserved. -/
theorem SparesWords.name_eq (spared : session.SparesWords words) {symbol : Handle}
    (issued : symbol.IssuedBefore .symbols session.store.symbols.owner session.store.symbols.size) :
    ∃ name, session.store.symbols.name symbol = .ok name ∧ words.isReserved name = false := by
  obtain ⟨name, named⟩ := Store.name_eq session.store issued
  obtain ⟨i, -, inside⟩ := Symbols.name_eq_ok_iff.mp named
  exact ⟨name, named, spared.2 name (List.mem_of_getElem? inside)⟩

end Session

/-- Reserved words stay reserved. Programs and data are evaluated in a new session with any reserved
words, and between one and the next further words are reserved, or refused.

Every word in the heap stands for a special form or an operator that is registered, so no evaluation
fails for want of one; and a name that is placed in the heap as a reserved word is placed there as
the same word at all later times. If no word was reserved since the session began, every symbol of
the heap and every symbol that a frame binds has a name that is not reserved. -/
theorem reserved_words_stay (words : Vocabulary) (stepLimit : Int) (session : Session)
    (continued : (Session.start words stepLimit).Continues session) :
    (∀ h name, session.store.heap.get h = .ok (.keyword name) →
      ∃ form, session.vocabulary.form name = .ok form) ∧
    (∀ h name, session.store.heap.get h = .ok (.operator name) →
      ∃ operator, session.vocabulary.operator name = .ok operator) ∧
    (∀ failure, failure.isUnregistered = true →
      (∀ stack room expr, (evaluate stack room expr).failure? session ≠ some failure) ∧
        (∀ host source, (evaluateSource host source).failure? session ≠ some failure) ∧
        ∀ host datum, (evaluateDatum host datum).failure? session ≠ some failure) ∧
    (∀ name record left, internAtom name session = .ok record left → record.isWord = true →
      ∀ later, session.Continues later → internAtom name later = .ok record later) ∧
    ((Session.start words stepLimit).LeadsTo session →
      (∀ h symbol, session.store.heap.get h = .ok (.symbol symbol) →
        ∃ name, session.store.symbols.name symbol = .ok name ∧ words.isReserved name = false) ∧
      ∀ frame ∈ session.scopes.frames, ∀ symbol ∈ frame.bindings.keys,
        ∃ name, session.store.symbols.name symbol = .ok name ∧ words.isReserved name = false) := by
  have explained := (continued.explained (Session.start_explained words stepLimit)).1
  refine ⟨fun h name stored => ?_, fun h name stored => ?_, fun failure unregistered => ?_,
    fun name record left lowered word later further => ?_, fun leads => ?_⟩
  · exact Vocabulary.form_of_explains (explained.record stored)
  · exact Vocabulary.operator_of_explains (explained.record stored)
  · have never {routine : Routine Handle}
        (upholds : Upholds session.vocabulary session.vocabulary.Explains
          (fun _ failure => failure.isUnregistered = false) Handle routine routine) :
        routine.failure? session ≠ some failure := by
      intro failed
      have permitted := upholds.permits explained failed
      rw [unregistered] at permitted
      cases permitted
    exact ⟨fun stack room expr => never (.evaluate (Vocabulary.explaining _) stack room expr),
      fun host source => never (.source_registered host source),
      fun host datum => never (.datum_registered host datum)⟩
  · exact further.internAtom explained (Session.classify_of_internAtom lowered word)
  · have wf := (leads.reachable (.start words stepLimit)).wellFormed
    have spared : session.SparesWords words := leads.sparesWords ⟨rfl, fun _ => nofun⟩
    refine ⟨fun h symbol stored => spared.name_eq (wf.store.symbol_issued stored), ?_⟩
    intro frame member symbol bound
    obtain ⟨i, below, rfl⟩ := Array.mem_iff_getElem.mp member
    obtain ⟨binding, inside, rfl⟩ := List.mem_map.mp bound
    have refers := wf.frames (Array.getElem?_eq_some_iff.mpr ⟨below, rfl⟩)
    exact spared.name_eq (refers.bindings binding inside).1

/-- A special form is registered under a word of its own; that the word for sums be a special form
is refused. -/
theorem reserved_words_stay_of_unless :
    let session := (registerForm "unless" .conditional).after (.start .standard 0)
    let later := (registerForm "+" .sequence).after session
    (Session.start .standard 0).Continues session ∧ session.Continues later ∧
      (registerForm "+" .sequence).failure? session = some (.nameTaken "+" .operator) ∧
      internAtom "unless" (.start .standard 0) =
        .ok (.symbol ⟨.symbols, 0, 0⟩) ((internSymbol "unless").after (.start .standard 0)) ∧
      internAtom "unless" later = .ok (.keyword "unless") later ∧
      internAtom "+" later = .ok (.operator "+") later := by
  intro session later
  have continued : (Session.start .standard 0).Continues session := .form .refl _ _
  have further : session.Continues later := .form .refl _ _
  obtain ⟨-, -, -, stays, -⟩ := reserved_words_stay .standard 0 session continued
  have own : internAtom "unless" session = .ok (.keyword "unless") session := rfl
  have sum : internAtom "+" session = .ok (.operator "+") session := rfl
  refine ⟨continued, further, by decide +kernel, rfl, ?_, ?_⟩
  · exact stays "unless" _ _ own rfl later further
  · exact stays "+" _ _ sum rfl later further

end ScopedLisp
