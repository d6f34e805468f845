import ScopedLisp.Proofs.Datum.Shown
import ScopedLisp.Proofs.Program.Reachable
import ScopedLisp.Proofs.Program.ReadAhead

/-!
# The first step

A text takes its first step where the first of its data is evaluated. A negative limit is exceeded
by it, so no such text is evaluated any further. A text of which no datum is read takes no step, and
no limit is of account.
-/

namespace ScopedLisp

open Routine

namespace Reader

/-- What is read contains no values of the embedding program. -/
theorem building_native :
    Building (fun _ => True) (fun _ => True)
      fun _ datum => datum.EveryLeaf (·.foreignValue? = none) where
  malformed _ := trivial
  exhausted := trivial
  refused _ _ := trivial
  word {_ _ datum} _ word := by
    refine Datum.everyLeaf_of_isWord (isWord_of_wordDatum word) fun not_foreign => ?_
    cases datum with
    | foreign value => exact absurd rfl (not_foreign value)
    | _ => rfl
  quoted inner := ⟨rfl, inner, trivial⟩
  list inner := Datum.everyLeafOfAll_iff.mpr inner
  dotted inner last := ⟨Datum.everyLeafOfAll_iff.mpr inner, last⟩

theorem datum?_native {stack : ReadStack} {stream left : TokenStream} {datum : Datum}
    (read : datum? stack stream = .ok (some datum) left) : datum.Native := by
  have reads := building_native.datum? stack stream ⟨fun _ _ => trivial, fun _ _ => trivial⟩
  rw [read] at reads
  exact (Datum.everyLeaf_iff_leaves datum).mp (reads.2 datum rfl)

end Reader

namespace Routine

/-- What is evaluated beyond the limit fails, where the stack holds, and only the step is counted
and the failure reported. -/
theorem evaluate_of_exceeded {stack : EvalStack} {room : Nat} (calm : ¬stack.FailsEarly)
    {session : Session} {limit : Int} (limited : session.stepLimit = limit) (set : limit ≠ 0)
    (exceeded : limit < (session.steps + 1 : Nat)) (expr : Handle) :
    evaluate stack (room + 1) expr session = .error (.stepLimitExceeded limit)
      { session with
        steps := session.steps + 1
        journal := session.journal.push (.budgetExhausted limit) } := by
  subst limited
  let calls := stack.callsWithin room
  have passes (moment : Moment) (session : Session) :
      calls.reach moment session = .ok () session := by
    apply stack.admits_reach
    rw [Bool.eq_false_iff]
    exact fun early => calm ⟨moment, room, session, early⟩
  have ticked : calls.tick session = enforceLimit { session with steps := session.steps + 1 } := by
    rw [Calls.tick, bind_ok (rfl : countStep session = .ok () _)]
    exact bind_ok (passes .counted _)
  rw [enforceLimit_eq, if_pos ⟨set, exceeded⟩] at ticked
  change calls.step expr session = _
  rw [Calls.step, bind_ok (passes .evaluating session), bind_error ticked]

section Source

variable {host : Host} {source : String}

/-- Where no datum of a text is read, a new session reports just that, or it is left as it is with
the failure of reading. -/
theorem evaluateSource_of_no_datum (words : Vocabulary)
    (no_datum : ∀ datum left,
      Reader.datum? host.reading (.ofSource source) ≠ .ok (some datum) left) :
    (∀ limit, evaluateSource host source (.start words limit) =
      .ok (Session.start words limit).store.heap.nil
        { Session.start words limit with
          journal := (Session.start words limit).journal.push (.programEvaluated 0 0) }) ∨
    ∃ failure, ∀ limit, evaluateSource host source (.start words limit) =
      .error failure (.start words limit) := by
  cases read : Reader.datum? host.reading (.ofSource source) with
  | ok found left =>
    cases found with
    | some datum => exact absurd read (no_datum datum left)
    | none =>
      have ahead : (Reader.data host.reading (.ofSource source)).1 = .empty := by
        rw [Reader.data, Reader.dataUpTo, read]
      refine .inl fun limit => ?_
      rw [evaluateSource_eq_ahead, ahead]
      rfl
  | error failure left =>
    have ahead : (Reader.data host.reading (.ofSource source)).1 = .failed failure := by
      rw [Reader.data, Reader.dataUpTo, read]
    have fails : ∃ cause, ∀ limit, (guarded (throw failure) : Routine Unit)
        (.start words limit) = .error cause (.start words limit) := by
      by_cases exhausted : failure = .stackExhausted
      · exact ⟨.recursionDepthExceeded, fun limit => by rw [exhausted]; rfl⟩
      · exact ⟨failure, fun limit => guarded_throw_of_ne exhausted _⟩
    obtain ⟨cause, fails⟩ := fails
    refine .inr ⟨cause, fun limit => ?_⟩
    rw [evaluateSource_eq_ahead, ahead]
    exact (bind_ok rfl).trans (bind_error (fails limit))

/-- Where a datum is read and the stack holds, a negative limit ends the evaluation at its first
step. -/
theorem evaluateSource_of_negative (words : Vocabulary) {datum : Datum} {left : TokenStream}
    (read : Reader.datum? host.reading (.ofSource source) = .ok (some datum) left)
    (calm : ¬host.evaluating.FailsEarly) (roomy : 0 < host.evaluating.room) {limit : Int}
    (negative : limit < 0) :
    ∃ last, evaluateSource host source (.start words limit) =
      .error (.stepLimitExceeded limit) last ∧ last.steps = 1 := by
  have begins := (start_wellFormed words limit).store.beginsWithNil
  obtain ⟨h, mid, placed, -⟩ := embedded_places begins (Reader.datum?_native read)
  have only := left_of_embedded placed
  have limited : mid.stepLimit = limit := congrArg (·.stepLimit) only
  obtain ⟨room, same_room⟩ := Nat.exists_eq_add_one_of_ne_zero (Nat.ne_of_gt roomy)
  let last : Session :=
    { mid with steps := mid.steps + 1, journal := mid.journal.push (.budgetExhausted limit) }
  have exceeds : evaluate host.evaluating host.evaluating.room h mid =
      .error (.stepLimitExceeded limit) last := by
    rw [same_room]
    exact evaluate_of_exceeded calm limited (by omega) (by omega) h
  have others : ∀ left, evaluate host.evaluating host.evaluating.room h mid ≠
      .error .stackExhausted left := by
    intro left exhausted
    cases exceeds.symm.trans exhausted
  have ends := calc
    evaluateDatum host datum (.start words limit) = evaluateAt host h mid := by
      rw [evaluateDatum, embed_eq_embedded, bind_ok placed]
    _ = evaluate host.evaluating host.evaluating.room h mid := guarded_of_other others
    _ = .error (.stepLimitExceeded limit) last := exceeds
  refine ⟨last, ?_, congrArg (·.steps + 1) only⟩
  rw [evaluateSource_eq_ahead]
  refine bind_error ?_
  rw [Reader.data, Reader.dataUpTo, read]
  exact bind_error ends

end Source

end Routine

end ScopedLisp
