import ScopedLisp.Program
import ScopedLisp.Proofs.Datum.HostValue

/-!
# Failures of reading

What evaluation reads of the store and of the reserved words can fail, but never in a way that
concerns the host's stack, the scopes or the limits. Statements about those treat every such
reading alike, and this module says once why they may.
-/

namespace ScopedLisp

/-- The failure is not about the text of a source. -/
def Failure.isOfEvaluation : Failure → Bool
  | .malformedSource _ => false
  | _ => true

/-- The failure is not about the text of a source, nor about the host's stack, the active scopes or
the step limit. -/
def Failure.isPlain : Failure → Bool
  | .malformedSource _ | .scopeUnderflow _ | .stackExhausted | .stepLimitExceeded _
  | .recursionDepthExceeded => false
  | _ => true

theorem Failure.isOfEvaluation_of_isPlain {failure : Failure} (plain : failure.isPlain = true) :
    failure.isOfEvaluation = true := by
  cases failure with
  | malformedSource _ => cases plain
  | _ => rfl

/-- The failure is one that special forms and operators report, or one of looking something up: none
of the above, and not about unregistered words, numbers of too many digits or misuse by the host. -/
def Failure.isOrdinary : Failure → Bool
  | .unboundVariable _ | .notCallable _ | .typeMismatch _ _ | .improperList _
  | .arityMismatch _ _ _ _ | .unknownHandle _ _ | .notAPair _ | .endlessWalk => true
  | .unsupportedForm _ (.duplicateParameter _) | .unsupportedForm _ .sequenceUnregistered => true
  | _ => false

theorem Failure.isPlain_of_isOrdinary {failure : Failure} (ordinary : failure.isOrdinary = true) :
    failure.isPlain = true := by
  cases failure with
  | malformedSource _ | scopeUnderflow _ | stackExhausted | stepLimitExceeded _
  | recursionDepthExceeded => cases ordinary
  | _ => rfl

/-- The record is a number of too many digits to be converted. -/
def Record.isWide : Record → Bool
  | .integer value | .foreign value => (Text.Numeral.print? value).isNone
  | _ => false

/-- Some record is a number of too many digits to be converted. -/
def Heap.hasWide (heap : Heap) : Bool := heap.records.any (·.isWide)

/-- The failures of what is read off a store: ordinary ones, and that a number has too many digits,
provided that the store holds such a number. -/
def Store.permits (store : Store) (failure : Failure) : Bool :=
  failure.isOrdinary || (failure == .tooManyDigits && store.heap.hasWide)

/-- The failure is neither a fault of the interpreter nor an endless walk. -/
def Failure.isSafe : Failure → Bool
  | .endlessWalk => false
  | failure => failure.family ≠ .fault

/-- That a value is not shown has nothing to do with the state of the interpreter. -/
theorem Unshown.isPlain_failure (reason : Unshown) : reason.failure.isPlain = true := by
  cases reason <;> rfl

theorem Unshown.isSafe_failure (reason : Unshown) : reason.failure.isSafe = true := by
  cases reason <;> rfl

/-- The result, if it is a failure, is an allowed one. -/
def FailsWithin (allowed : Failure → Bool) {α : Type} (result : Except Failure α) : Prop :=
  ∀ failure, result = .error failure → allowed failure = true

abbrev FailsPlainly {α : Type} (result : Except Failure α) : Prop :=
  FailsWithin Failure.isPlain result

abbrev FailsOrdinarily {α : Type} (result : Except Failure α) : Prop :=
  FailsWithin Failure.isOrdinary result

abbrev FailsSafely {α : Type} (result : Except Failure α) : Prop :=
  FailsWithin Failure.isSafe result

namespace FailsWithin

variable {allowed : Failure → Bool} {α β : Type}

theorem ok (value : α) : FailsWithin allowed (.ok value) := by
  intro failure same
  cases same

theorem error {failure : Failure} (permitted : allowed failure = true) :
    FailsWithin allowed (.error failure : Except Failure α) := by
  intro other same
  cases same
  exact permitted

/-- A wider range of failures is allowed a fortiori. -/
theorem mono {larger : Failure → Bool} {result : Except Failure α}
    (within : FailsWithin allowed result)
    (contains : ∀ failure, allowed failure = true → larger failure = true) :
    FailsWithin larger result :=
  fun failure same => contains failure (within failure same)

/-- A failure of a sequence is one of its first part, or one of what follows a success of it. -/
theorem bind_of_ok {first : Except Failure α} {next : α → Except Failure β}
    (head : FailsWithin allowed first)
    (tail : ∀ value, first = .ok value → FailsWithin allowed (next value)) :
    FailsWithin allowed (first >>= next) := by
  cases result : first with
  | error failure => exact error (head failure result)
  | ok value => exact tail value result

theorem bind {first : Except Failure α} {next : α → Except Failure β}
    (head : FailsWithin allowed first) (tail : ∀ value, FailsWithin allowed (next value)) :
    FailsWithin allowed (first >>= next) :=
  head.bind_of_ok fun value _ => tail value

theorem map {first : Except Failure α} {f : α → β} (head : FailsWithin allowed first) :
    FailsWithin allowed (first.map f) := by
  cases first with
  | ok value => exact ok _
  | error failure => exact error (head failure rfl)

/-- Where the first part succeeds, only the failures of the second count. -/
theorem after_ok {first : Except Failure α} {next : α → Except Failure β} {value : α}
    (head : first = .ok value) (tail : FailsWithin allowed (next value)) :
    FailsWithin allowed (first >>= next) := by
  rw [head]
  exact tail

/-- One more item in front of a listing does not change how it ends. -/
theorem cons {item : α} {listing : Listing α} (rest : FailsWithin allowed listing.all) :
    FailsWithin allowed (listing.cons item).all := by
  obtain ⟨items, ending⟩ := listing
  cases ending with
  | none => exact ok _
  | some failure => exact error (rest failure rfl)

end FailsWithin

/-- What follows a success goes on with its value. -/
theorem ok_bind {α β : Type} {first : Except Failure α} {next : α → Except Failure β} {value : α}
    (found : first = .ok value) : (first >>= next) = next value := by
  rw [found]
  rfl

/-- A sequence succeeds only if both of its parts do. -/
theorem exists_of_bind_ok {α β : Type} {first : Except Failure α} {next : α → Except Failure β}
    {value : β} (found : (first >>= next) = .ok value) :
    ∃ mid, first = .ok mid ∧ next mid = .ok value := by
  cases first with
  | error failure => cases found
  | ok mid => exact ⟨mid, rfl, found⟩

/-- A failure that is reported with something read off the store is a failure in any case. -/
theorem exists_of_map_ok {α β : Type} {first : Except Failure α} {f : α → β} {result : β}
    (same : first.map f = .ok result) : ∃ value, first = .ok value ∧ f value = result := by
  cases first with
  | error failure => cases same
  | ok value => exact ⟨value, rfl, Except.ok.inj same⟩

theorem eq_error_of_map {α β : Type} {first : Except Failure α} {f : α → β} {failure : Failure}
    (same : first.map f = .error failure) : first = .error failure := by
  cases first with
  | error other =>
    cases same
    rfl
  | ok value => cases same

/-- A sequence that ends by failing does not succeed. -/
theorem bind_throw_ne_ok {α β : Type} (first : Except Failure α) (cause : α → Failure)
    (value : β) : (first >>= fun found => throw (cause found)) ≠ Except.ok value := by
  cases first <;> rintro ⟨⟩

namespace Heap

theorem get_failsOrdinarily (heap : Heap) (h : Handle) : FailsOrdinarily (heap.get h) := by
  unfold get
  split
  · exact .ok _
  · exact .error rfl

/-- A walk along a list fails for a bad link, or as the limit of the walk does. -/
theorem walk_failsOrdinarily (heap : Heap) {limit : Listing Handle}
    (ordinary : FailsOrdinarily limit.all) (count : Nat) (h : Handle) :
    FailsOrdinarily (heap.walk limit count h).all := by
  induction count generalizing h with
  | zero => exact ordinary
  | succ count ih =>
    unfold walk
    split
    · next failure missing =>
      exact .error (heap.get_failsOrdinarily h failure missing)
    · next car cdr _ => exact .cons (ih cdr)
    · exact .ok _
    · exact .error rfl

theorem elements_failsOrdinarily (heap : Heap) (h : Handle) :
    FailsOrdinarily (heap.elements h) := by
  have limit : FailsOrdinarily (Listing.failed .endlessWalk : Listing Handle).all := .error rfl
  exact heap.walk_failsOrdinarily limit _ h

theorem spine_failsOrdinarily (heap : Heap) (steps : Nat) (h : Handle) :
    FailsOrdinarily (heap.spine steps h) := by
  induction steps generalizing h with
  | zero => exact .error rfl
  | succ steps ih =>
    unfold spine
    apply (heap.get_failsOrdinarily h).bind
    intro record
    split
    · exact (ih _).bind fun _ => .ok _
    · exact .ok _

/-- The shape of a parameter list is read off its links. -/
theorem parameterShape_failsOrdinarily (heap : Heap) (params : Handle) :
    FailsOrdinarily (heap.parameterShape params) :=
  (heap.spine_failsOrdinarily _ params).bind fun _ => .ok _

/-- A record that the heap holds is one that makes it hold a wide number, if it is one. -/
theorem hasWide_of_get {heap : Heap} {h : Handle} {record : Record}
    (stored : heap.get h = .ok record) (wide : record.isWide = true) : heap.hasWide = true := by
  obtain ⟨i, -, rfl⟩ := get_eq_ok_iff.mp stored
  exact Array.any_eq_true.mpr ⟨i, i.isLt, wide⟩

end Heap

theorem Symbols.name_failsOrdinarily (symbols : Symbols) (h : Handle) :
    FailsOrdinarily (symbols.name h) := by
  unfold Symbols.name
  split
  · exact .ok _
  · exact .error rfl

theorem Texts.get_failsOrdinarily (texts : Texts) (h : Handle) : FailsOrdinarily (texts.get h) := by
  unfold Texts.get
  split
  · exact .ok _
  · exact .error rfl

/-- An integer has no text only if it has too many digits. -/
theorem Record.digits_eq_error {value : Int} {failure : Failure}
    (failed : Record.digits value = .error failure) :
    failure = .tooManyDigits ∧ (Text.Numeral.print? value).isNone = true := by
  unfold Record.digits at failed
  split at failed
  · cases failed
  · next unprinted =>
    cases failed
    exact ⟨rfl, Option.isNone_iff_eq_none.mpr unprinted⟩

theorem Record.digits_failsWithin {allowed : Failure → Bool}
    (digits : allowed .tooManyDigits = true) (value : Int) :
    FailsWithin allowed (Record.digits value) := by
  intro failure failed
  rw [(Record.digits_eq_error failed).1]
  exact digits

namespace Store

theorem permits_of_isOrdinary {store : Store} {failure : Failure}
    (ordinary : failure.isOrdinary = true) : store.permits failure = true := by
  rw [permits, ordinary, Bool.true_or]

/-- A number that cannot be converted is ground for the failure to convert it. -/
theorem permits_tooManyDigits {store : Store} (wide : store.heap.hasWide = true) :
    store.permits .tooManyDigits = true := wide

/-- What reading a store may end in has nothing to do with stack, scopes and limits. -/
theorem isPlain_of_permits {store : Store} {failure : Failure}
    (permitted : store.permits failure = true) : failure.isPlain = true := by
  rcases Bool.or_eq_true_iff.mp permitted with ordinary | wide
  · exact Failure.isPlain_of_isOrdinary ordinary
  · have digits : (failure == .tooManyDigits) = true := (Bool.and_eq_true_iff.mp wide).1
    rw [eq_of_beq digits]
    rfl

variable {α : Type} {store : Store}

/-- The result, if it is a failure, is one of what is read off the store. -/
abbrev Permits (store : Store) (result : Except Failure α) : Prop :=
  FailsWithin store.permits result

/-- Ordinary failures need no integer to be explained. -/
theorem Permits.of_ordinary {result : Except Failure α} (ordinary : FailsOrdinarily result) :
    store.Permits result :=
  ordinary.mono fun _ => permits_of_isOrdinary

theorem permits_get (store : Store) (h : Handle) : store.Permits (store.heap.get h) :=
  .of_ordinary (store.heap.get_failsOrdinarily h)

/-- If the text of a stored integer is refused, the store holds an integer that is too long. -/
theorem permits_digits {h : Handle} {record : Record} {value : Int}
    (stored : store.heap.get h = .ok record)
    (wide : record.isWide = (Text.Numeral.print? value).isNone) :
    store.Permits (Record.digits value) := by
  intro failure failed
  obtain ⟨rfl, unprinted⟩ := Record.digits_eq_error failed
  exact permits_tooManyDigits (Heap.hasWide_of_get stored (wide.trans unprinted))

theorem permits_layout (store : Store) (h : Handle) : store.Permits (store.layout h) := by
  unfold layout
  apply (store.permits_get h).bind_of_ok
  intro record stored
  cases record with
  | pair car cdr =>
    exact (Permits.of_ordinary (store.heap.spine_failsOrdinarily _ cdr)).bind fun _ => .ok _
  | symbol name =>
    exact (Permits.of_ordinary (store.symbols.name_failsOrdinarily name)).bind fun _ => .ok _
  | string text =>
    exact (Permits.of_ordinary (store.texts.get_failsOrdinarily text)).bind fun _ => .ok _
  | integer value | foreign value => exact (permits_digits stored rfl).bind fun _ => .ok _
  | nil | procedure _ _ _ | keyword _ | operator _ | boolean _ | character _ => exact .ok _

/-- Rendering fails for a bad link, or at an integer that is too long. -/
theorem permits_writeFrom (store : Store) (pending : List Piece) (written : String) :
    store.Permits (store.writeFrom pending written) := by
  fun_induction writeFrom store pending written with
  | case1 written => exact .ok _
  | case2 written text rest ih => exact ih
  | case3 written h rest => exact .error (permits_of_isOrdinary rfl)
  | case4 written room h rest failure found => exact .error (store.permits_layout h _ found)
  | case5 written room h rest layout found ih => exact ih

theorem permits_render (store : Store) (h : Handle) : store.Permits (store.render h) :=
  store.permits_writeFrom _ _

/-- A description fails as rendering does. -/
theorem permits_describe (store : Store) (h : Handle) : store.Permits (store.describe h) := by
  apply (store.permits_get h).bind
  intro record
  exact (store.permits_render h).bind fun _ => .ok _

theorem permits_requireNew (store : Store) (form : String) (seen : List Handle)
    (symbol : Handle) : store.Permits (store.requireNew form seen symbol) := by
  unfold requireNew
  split
  · apply (Permits.of_ordinary (store.symbols.name_failsOrdinarily symbol)).bind
    intro name
    exact .error (permits_of_isOrdinary rfl)
  · exact .ok _

/-- Checking parameters fails for a repeated name, a name that is no symbol or a bad link, and where
these are described, as rendering does. -/
theorem permits_checkParametersFrom (store : Store) (form : String) (steps : Nat)
    (seen : List Handle) (params : Handle) :
    store.Permits (store.checkParametersFrom form steps seen params) := by
  have described (h : Handle) (cause : String → Failure)
      (ordinary : ∀ shown, (cause shown).isOrdinary = true) :
      store.Permits (do throw (cause (← store.describe h)) : Except Failure Unit) :=
    (store.permits_describe h).bind fun shown => .error (permits_of_isOrdinary (ordinary shown))
  induction steps generalizing seen params with
  | zero => exact .error (permits_of_isOrdinary rfl)
  | succ steps ih =>
    unfold checkParametersFrom
    apply (store.permits_get params).bind
    intro record
    split
    · exact .ok _
    · exact store.permits_requireNew form seen _
    · apply (store.permits_get _).bind
      intro parameter
      split
      · exact (store.permits_requireNew form seen _).bind fun _ => ih _ _
      · exact described _ (.typeMismatch "symbol") fun _ => rfl
    · exact described _ (.typeMismatch "parameter list") fun _ => rfl

theorem permits_checkParameters (store : Store) (form : String) (params : Handle) :
    store.Permits (store.checkParameters form params) :=
  store.permits_checkParametersFrom form _ [] params

end Store

/-- Where a value of the embedding program is not shown, the failure is that of the reason. -/
theorem HostValue.display_failsWithin {allowed : Failure → Bool}
    (unshown : ∀ reason : Unshown, allowed reason.failure = true) (value : HostValue) :
    FailsWithin allowed value.display := by
  intro failure failed
  obtain ⟨reason, -, rfl⟩ := display_eq_error failed
  exact unshown reason

namespace Vocabulary

variable {allowed : Failure → Bool} {name : String}

theorem form_failsWithin (words : Vocabulary)
    (missing : ∀ reason, allowed (.unsupportedForm name reason) = true) :
    FailsWithin allowed (words.form name) := by
  unfold form
  split
  · exact .ok _
  · exact .error (missing _)

theorem operator_failsWithin (words : Vocabulary)
    (missing : ∀ reason, allowed (.unsupportedForm name reason) = true) :
    FailsWithin allowed (words.operator name) := by
  unfold operator
  split
  · exact .ok _
  · exact .error (missing _)

/-- A reserved name is given a record that carries the name. -/
theorem classify_eq {words : Vocabulary} {record : Record}
    (reserved : words.classify name = some record) :
    record = .keyword name ∨ record = .operator name := by
  unfold classify at reserved
  split at reserved
  · cases reserved
    exact .inl rfl
  · split at reserved <;> cases reserved
    exact .inr rfl

end Vocabulary

end ScopedLisp
