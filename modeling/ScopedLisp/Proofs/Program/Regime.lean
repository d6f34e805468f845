import ScopedLisp.Proofs.Datum.Printable
import ScopedLisp.Proofs.Eval.Regime
import ScopedLisp.Proofs.Session.Embedding

/-!
# Programs under a regime

Placing a datum in the heap adds the reserved words that the datum names. If the regime of a session
has room for every reserved word, then a program leaves the session under its regime, and it fails
only as the regime permits: while the datum is evaluated, while it is placed, or while it is read.
-/

namespace ScopedLisp

open Routine

/-- If this is a value of the embedding program, it is permitted that it turns out to be no datum,
and that it cannot be shown. -/
def Datum.AdmittedLeaf (permits : Store → Failure → Prop) (leaf : Datum) : Prop :=
  ∀ value, leaf = .foreign value → ∀ store,
    (∀ reason : Unshown, permits store reason.failure) ∧ ∀ shown, permits store (.notADatum shown)

abbrev Datum.Admitted (permits : Store → Failure → Prop) (datum : Datum) : Prop :=
  datum.EveryLeaf (AdmittedLeaf permits)

/-- What is read on the host from streams that fit: from each of them an admitted datum and a stream
that fits again, or a failure that is permitted unless the host's stack is used up. -/
structure ReadsWithin (host : Host) (permits : Store → Failure → Prop)
    (fits : TokenStream → Prop) : Prop where
  datum : ∀ {stream left : TokenStream} {datum : Datum}, fits stream →
    Reader.datum? host.reading stream = .ok (some datum) left →
      fits left ∧ datum.Admitted permits
  failure : ∀ {stream left : TokenStream} {failure : Failure}, fits stream →
    Reader.datum? host.reading stream = .error failure left →
      failure = .stackExhausted ∨ ∀ store, permits store failure

namespace Upholds

variable {words : Vocabulary} {holds : Record → Prop} {offers : SpecialForm → Prop}
  {permits : Store → Failure → Prop}

/-! ### Placing data -/

section Placing

variable (law : Regime words holds offers permits)
include law

theorem allocateList (items : List Handle) (tail : Option Handle) :
    Upholds words holds permits Handle (allocateList items tail)
      (Routine.allocateList items tail) := by
  induction items with
  | nil => exact of_ok fun session => ⟨_, session, rfl, rfl, rfl⟩
  | cons item rest ih =>
    rw [allocateList_cons]
    exact ih.bind fun longer => allocate (law.plain _ rfl)

/-- An atom is made a record that satisfies the regime if all reserved words do. -/
theorem internAtom
    (classified : ∀ {name record}, words.classify name = some record → holds record)
    (name : String) :
    Delivers (Upholds words holds permits) holds (internAtom name) (Routine.internAtom name) := by
  intro β next next' tail session under
  have reading : inspect (fun _ words => .ok (words.classify name)) session =
      .ok (session.vocabulary.classify name) session := inspect_ok rfl
  rw [Routine.internAtom, bind_assoc, bind_ok reading]
  cases reserved : session.vocabulary.classify name with
  | some record =>
    rw [under.vocabulary] at reserved
    exact tail record (classified reserved) session under
  | none => exact tail (.symbol _) (law.plain _ rfl) _ (under.congr rfl rfl)

end Placing

mutual

/-- Embedding a datum upholds the regime if its leaves are admitted. -/
theorem embedded (law : Regime words holds offers permits)
    (classified : ∀ {name record}, words.classify name = some record → holds record)
    (datum : Datum) (admitted : datum.Admitted permits) :
    Upholds words holds permits Handle (embedded datum) (Routine.embedded datum) := by
  match datum with
  | .list items =>
    rw [Routine.embedded]
    exact (embeddedAll law classified items admitted).bind fun _ => allocateList law _ _
  | .dotted items tail =>
    rw [Routine.embedded]
    apply (embeddedAll law classified items admitted.1).bind
    intro _
    exact (embedded law classified tail admitted.2).bind fun _ => allocateList law _ _
  | .atom name =>
    rw [Routine.embedded]
    exact internAtom law classified name fun record held => allocate held
  | .integer _ | .boolean _ | .character _ =>
    rw [Routine.embedded]
    exact allocate (law.plain _ rfl)
  | .string text =>
    have entering : Upholds words holds permits Handle (insertText text) (insertText text) :=
      of_ok fun _ => ⟨_, _, rfl, rfl, rfl⟩
    rw [Routine.embedded]
    exact entering.bind fun _ => allocate (law.plain _ rfl)
  | .foreign value =>
    have permitted := admitted value rfl
    rw [Routine.embedded]
    intro session under
    cases shown : value.display with
    | ok text => exact ⟨under, (permitted session.store).2 text⟩
    | error failure =>
      obtain ⟨reason, -, rfl⟩ := HostValue.display_eq_error shown
      exact ⟨under, (permitted session.store).1 reason⟩

theorem embeddedAll (law : Regime words holds offers permits)
    (classified : ∀ {name record}, words.classify name = some record → holds record)
    (items : List Datum)
    (admitted : Datum.EveryLeafOfAll (Datum.AdmittedLeaf permits) items) :
    Upholds words holds permits (List Handle) (embeddedAll items) (Routine.embeddedAll items) := by
  match items with
  | [] =>
    rw [Routine.embeddedAll]
    exact pure []
  | datum :: rest =>
    rw [Routine.embeddedAll]
    apply (embedded law classified datum admitted.1).bind
    intro _
    exact (embeddedAll law classified rest admitted.2).bind fun _ => pure _

end

/-! ### Calls on the interpreter -/

section Programs

variable (law : Regime words holds offers permits)
  (classified : ∀ {name record}, words.classify name = some record → holds record)
include law classified

/-- Evaluating a datum upholds the regime if its leaves are admitted. -/
theorem evaluateDatum (host : Host) {datum : Datum} (admitted : datum.Admitted permits) :
    Upholds words holds permits Handle (evaluateDatum host datum)
      (Routine.evaluateDatum host datum) := by
  unfold Routine.evaluateDatum
  rw [embed_eq_embedded]
  apply (embedded law classified datum admitted).bind
  intro expr
  exact guarded law (evaluate law host.evaluating host.evaluating.room expr)

variable {host : Host} {fits : TokenStream → Prop} (reads : ReadsWithin host permits fits)
include reads

omit classified in
/-- Reading the next datum upholds the regime, gives a datum that is admitted, and leaves a stream
that fits. -/
theorem readNext {stream : TokenStream} (fit : fits stream) :
    Delivers (Upholds words holds permits)
      (fun next => ∀ datum left, next = some (datum, left) → fits left ∧ datum.Admitted permits)
      (readNext host stream) (Routine.readNext host stream) := by
  intro β next next' tail session under
  cases found : Reader.datum? host.reading stream with
  | ok datum left =>
    rw [bind_ok (readNext_of_ok found session)]
    refine tail _ ?_ session under
    rintro other rest same
    cases datum with
    | none => cases same
    | some datum =>
      cases same
      exact reads.datum fit found
  | error failure left =>
    have throws : Upholds words holds permits (Option (Datum × TokenStream))
        (throw failure) (throw failure) := by
      rcases reads.failure fit found with rfl | permitted
      · exact throwing law rfl
      · exact fun session under => ⟨under, permitted session.store⟩
    -- the guard may put another failure in its place, which is permitted too
    have upheld := guarded law throws session under
    obtain ⟨cause, last, fails⟩ := exists_guarded_throw failure session
    have ended : Routine.readNext host stream session = .error cause last :=
      (congrFun (readNext_of_error found) session).trans (fails _)
    rw [fails _] at upheld
    rw [bind_error ended]
    exact upheld

/-- Evaluating what a stream holds upholds the regime. The induction is on the rounds that are
left. -/
theorem evaluateStream (rounds forms : Nat) {stream : TokenStream} (fit : fits stream)
    (result : Handle) :
    Upholds words holds permits (Nat × Handle) (evaluateStream host rounds forms stream result)
      (Routine.evaluateStream host rounds forms stream result) := by
  induction rounds generalizing forms stream result with
  | zero => exact pure (forms, result)
  | succ rounds ih =>
    apply readNext law reads fit
    intro found goes_on
    cases found with
    | none => exact pure (forms, result)
    | some next =>
      obtain ⟨datum, left⟩ := next
      obtain ⟨fit, admitted⟩ := goes_on datum left rfl
      exact (evaluateDatum law classified host admitted).bind fun value => ih _ fit value

/-- Evaluating a source upholds the regime if its tokens fit. -/
theorem evaluateSource {source : String} (fit : fits (TokenStream.ofSource source)) :
    Upholds words holds permits Handle (evaluateSource host source)
      (Routine.evaluateSource host source) := by
  have reading : Upholds words holds permits Handle nil nil :=
    of_ok fun session => ⟨session.store.heap.nil, session, rfl, rfl, rfl⟩
  apply reading.bind
  intro result
  apply (evaluateStream law classified reads _ 0 fit result).bind
  intro ending
  exact of_ok fun session => ⟨_, _, rfl, rfl, rfl⟩

end Programs

end Upholds

end ScopedLisp
