import ScopedLisp.Proofs.Program.Pieces

/-!
# Reading ahead

Each datum of a source text is evaluated before the next one is read. The same comes out if all of
the text is read first: reading has no part in the session, and the reader takes no token beyond the
end of a datum. So a mistake in the text is reported after the data before it have been evaluated,
and it leaves no trace of the datum in which it stands.
-/

namespace ScopedLisp

open Routine

namespace Reader

variable {stack : ReadStack} {stream left : TokenStream}

/-- What is read on some stack is read on one that is never found used up early. -/
theorem datum?_withRoom {found : Option Datum} (plain : stream.EndsPlainly)
    (read : datum? stack stream = .ok found left) :
    datum? (.withRoom stack.room) stream = .ok found left := by
  have fits : stack.FitsIn (.withRoom stack.room) 0 := ⟨rfl, nofun⟩
  rcases (datum?_alike fits stream plain).1 with same | ⟨other, exhausted⟩
  · exact same ▸ read
  · cases read.symm.trans exhausted

/-- With more rounds than there are tokens, reading either fails or gets to the end. -/
theorem dataUpTo_left (plain : stream.EndsPlainly)
    (lexemes : ∀ token ∈ stream.items, token.IsLexeme) {rounds : Nat}
    (enough : stream.items.length < rounds)
    (complete : (dataUpTo stack rounds stream).1.failure = none) :
    (dataUpTo stack rounds stream).2 = .empty := by
  induction rounds generalizing stream with
  | zero => exact absurd enough (Nat.not_lt_zero _)
  | succ rounds ih =>
    unfold dataUpTo at complete ⊢
    cases read : datum? stack stream with
    | error failure left =>
      rw [read] at complete
      cases complete
    | ok found left =>
      have roomy := datum?_withRoom plain read
      rw [read] at complete
      cases found with
      | none =>
        obtain rfl := datum?_none_cases roomy
        cases roomy
        rfl
      | some datum =>
        obtain ⟨taken, rest, nonempty, same, rfl, -⟩ := datum?_some_cases lexemes roomy
        have positive := List.length_pos_iff.mpr nonempty
        rw [same] at lexemes enough
        rw [List.length_append] at enough
        have shorter : TokenStream.EndsPlainly { stream with items := rest } := plain
        refine ih shorter ?_ ?_ complete
        · exact fun token member => lexemes token (List.mem_append_right taken member)
        · dsimp only
          omega

/-- Of a source text all data are read, or reading fails. -/
theorem data_left (source : String)
    (complete : (data stack (.ofSource source)).1.failure = none) :
    (data stack (.ofSource source)).2 = .empty :=
  dataUpTo_left (Token.scanFrom_endsPlainly 0 source.toList) (fun _ => Token.isLexeme_of_mem_scan)
    (Nat.lt_succ_self _) complete

end Reader

namespace Routine

variable {host : Host} {session : Session}

/-- Evaluates data one after the other and returns the last value, or `result` if there are none. -/
def evaluateAll (host : Host) : Handle → List Datum → Routine Handle
  | result, [] => pure result
  | _, datum :: rest => do
    let value ← evaluateDatum host datum
    evaluateAll host value rest

/-- Reports the failure that ended reading, if one did. -/
def endReading : Option Failure → Routine Unit
  | some failure => guarded (throw failure)
  | none => pure ()

/-- Where several data are not all evaluated, the evaluation of one of them failed, and those before
it were evaluated. -/
theorem exists_of_evaluateAll_error {data : List Datum} {result : Handle} {failure : Failure}
    {left : Session} (failed : evaluateAll host result data session = .error failure left) :
    ∃ before datum after value mid, data = before ++ datum :: after ∧
      evaluateAll host result before session = .ok value mid ∧
      evaluateDatum host datum mid = .error failure left := by
  induction data generalizing result session with
  | nil => cases failed
  | cons datum rest ih =>
    cases evaluated : evaluateDatum host datum session with
    | error cause last =>
      rw [evaluateAll, bind_error evaluated] at failed
      cases failed
      exact ⟨[], datum, rest, result, session, rfl, rfl, evaluated⟩
    | ok value mid =>
      rw [evaluateAll, bind_ok evaluated] at failed
      obtain ⟨before, other, after, last, later, rfl, went, fails⟩ := ih failed
      refine ⟨datum :: before, other, after, last, later, rfl, ?_, fails⟩
      rw [evaluateAll, bind_ok evaluated]
      exact went

/-- A failure ends the evaluation, whatever data would follow. -/
theorem evaluateAll_append_of_error {before after : List Datum} {datum : Datum}
    {result value : Handle} {failure : Failure} {mid left : Session}
    (went : evaluateAll host result before session = .ok value mid)
    (fails : evaluateDatum host datum mid = .error failure left) :
    evaluateAll host result (before ++ datum :: after) session = .error failure left := by
  induction before generalizing result session with
  | nil =>
    cases went
    exact bind_error fails
  | cons first rest ih =>
    cases evaluated : evaluateDatum host first session with
    | error cause last =>
      rw [evaluateAll, bind_error evaluated] at went
      cases went
    | ok found next =>
      rw [evaluateAll, bind_ok evaluated] at went
      rw [List.cons_append, evaluateAll, bind_ok evaluated]
      exact ih went

/-- The data of a stream may be read before any of them is evaluated. The induction is on the
rounds, which are the same for the evaluation and for the reader. -/
theorem evaluateStream_eq (host : Host) (rounds forms : Nat) (stream : TokenStream)
    (result : Handle) (session : Session) :
    let ahead := (Reader.dataUpTo host.reading rounds stream).1
    evaluateStream host rounds forms stream result session =
      (do
        let value ← evaluateAll host result ahead.items
        endReading ahead.failure
        return (forms + ahead.items.length, value) : Routine (Nat × Handle)) session := by
  induction rounds generalizing forms stream result session with
  | zero => rfl
  | succ rounds ih =>
    rw [evaluateStream, Reader.dataUpTo]
    cases read : Reader.datum? host.reading stream with
    | error failure left =>
      obtain ⟨cause, last, fails⟩ := exists_guarded_throw failure session
      rw [bind_error ((congrFun (readNext_of_error read) session).trans (fails _))]
      exact (bind_error (fails Unit)).symm
    | ok found left =>
      rw [bind_ok (readNext_of_ok read session)]
      cases found with
      | none => rfl
      | some datum =>
        have counted (later : List Datum) : forms + 1 + later.length =
            forms + (datum :: later).length := by
          rw [List.length_cons]
          omega
        dsimp only [Option.map_some, Listing.cons]
        rw [evaluateAll, bind_assoc]
        apply bind_congr_of_ok
        intro value mid _
        rw [ih, counted]

/-- The data of a source text may be read before any of them is evaluated. -/
theorem evaluateSource_eq_ahead (host : Host) (source : String) (session : Session) :
    let ahead := (Reader.data host.reading (.ofSource source)).1
    evaluateSource host source session =
      (do
        let value ← evaluateAll host session.store.heap.nil ahead.items
        endReading ahead.failure
        report (.programEvaluated ahead.items.length (← get).steps)
        return value : Routine Handle) session := by
  intro ahead
  have streamed : evaluateStream host ((Token.scan source).items.length + 1) 0 (Token.scan source)
      session.store.heap.nil session =
      (do
        let value ← evaluateAll host session.store.heap.nil ahead.items
        endReading ahead.failure
        return (ahead.items.length, value) : Routine (Nat × Handle)) session := by
    have general := evaluateStream_eq host ((Token.scan source).items.length + 1) 0
      (Token.scan source) session.store.heap.nil session
    simp only [Nat.zero_add] at general
    exact general
  rw [evaluateSource_eq, bind_congr_left streamed]
  simp only [bind_assoc, pure_bind]

end Routine

/-- A source text is evaluated as if all of it were read first and its data were then evaluated one
after the other, as they would be if they were handed over one by one.

The reader goes on to the end of the text or fails. If the evaluation of a datum fails, the text
fails with it and leaves what that evaluation leaves, and so does every text that begins with the
same data, however it goes on. If all data are evaluated and reading failed, the failure of reading
is reported, and the session is the one that the last datum left. Otherwise the value is that of the
last datum, or the empty list if there is none, and only the report is added to the session. -/
theorem source_evaluated_as_read_ahead (host : Host) (source : String) (session : Session) :
    let ahead := (Reader.data host.reading (.ofSource source)).1
    let empty := session.store.heap.nil
    (ahead.failure = none → (Reader.data host.reading (.ofSource source)).2 = .empty) ∧
    match evaluateAll host empty ahead.items session with
    | .error failure left =>
      evaluateSource host source session = .error failure left ∧
      ∃ before datum after value mid, ahead.items = before ++ datum :: after ∧
        evaluateAll host empty before session = .ok value mid ∧
        evaluateDatum host datum mid = .error failure left ∧
        ∀ other later, (Reader.data host.reading (.ofSource other)).1.items =
            before ++ datum :: later →
          evaluateSource host other session = .error failure left
    | .ok value left =>
      match ahead.failure with
      | some failure =>
        evaluateSource host source session = guarded (throw failure) left ∧
        (failure ≠ .stackExhausted →
          evaluateSource host source session = .error failure left)
      | none =>
        evaluateSource host source session = .ok value
          { left with
            journal := left.journal.push (.programEvaluated ahead.items.length left.steps) } := by
  intro ahead empty
  refine ⟨Reader.data_left source, ?_⟩
  rw [evaluateSource_eq_ahead]
  cases evaluated : evaluateAll host empty ahead.items session with
  | error failure left =>
    obtain ⟨before, datum, after, value, mid, same, went, fails⟩ :=
      exists_of_evaluateAll_error evaluated
    refine ⟨bind_error evaluated, before, datum, after, value, mid, same, went, fails, ?_⟩
    intro other later items
    rw [evaluateSource_eq_ahead]
    exact bind_error (items ▸ evaluateAll_append_of_error went fails)
  | ok value left =>
    rw [bind_ok evaluated]
    cases ending : ahead.failure with
    | some failure =>
      obtain ⟨cause, last, fails⟩ := exists_guarded_throw failure left
      dsimp only
      rw [fails Handle]
      refine ⟨bind_error (fails Unit), fun other => ?_⟩
      exact bind_error (guarded_throw_of_ne other left)
    | none => rfl

/-- The second list is not finished, so nothing of it comes into the session: what is left is what
the evaluation of the first datum left. -/
theorem source_evaluated_as_read_ahead_of_unfinished :
    (evaluateDatum .standard (.integer 5)).failure? (.start .standard 0) = none ∧
      evaluateSource .standard "5 (6" (.start .standard 0) =
        .error (.malformedSource .unmatchedOpen)
          ((evaluateDatum .standard (.integer 5)).after (.start .standard 0)) := by
  have scanned : TokenStream.ofSource "5 (6" =
      ⟨[⟨.symbol, "5"⟩, ⟨.openList, "("⟩, ⟨.symbol, "6"⟩], none⟩ := by
    rw [TokenStream.ofSource]
    cbv
  have ahead : (Reader.data Host.standard.reading (.ofSource "5 (6")).1 =
      ⟨[.integer 5], some (.malformedSource .unmatchedOpen)⟩ := by
    rw [scanned]
    rfl
  have succeeds :
      (evaluateDatum .standard (.integer 5)).failure? (.start .standard 0) = none := by
    simp only [failure?, evaluateDatum, embed_eq_embedded]
    decide +kernel
  have ends := (source_evaluated_as_read_ahead .standard "5 (6" (.start .standard 0)).2
  cases evaluated : evaluateDatum .standard (.integer 5) (.start .standard 0) with
  | error failure left =>
    rw [failure?, evaluated] at succeeds
    cases succeeds
  | ok value left =>
    have all : evaluateAll .standard (Session.start .standard 0).store.heap.nil [.integer 5]
        (.start .standard 0) = .ok value left := bind_ok evaluated
    simp only [ahead, all] at ends
    have unfinished : Failure.malformedSource .unmatchedOpen ≠ .stackExhausted := by decide
    rw [after, evaluated]
    exact ⟨succeeds, ends.2 unfinished⟩

end ScopedLisp
