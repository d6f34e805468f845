import ScopedLisp.Proofs.Datum.Seam
import ScopedLisp.Proofs.Eval.Journal
import ScopedLisp.Proofs.Program.Exhaustion

/-!
# Programs in pieces

A program can be given to a session in pieces. Once a text has been evaluated, another text ends as
the text does that has both of them on lines of their own: with the same value, or with the same
failure, which tells a place further on if it tells one, and with the same session but for what was
reported. The value of the whole is that of the first piece if the second one has no datum.
-/

namespace ScopedLisp

open Routine

/-- The endings of a piece and of the whole. Values are related by `rel`, and in front of the piece
there are `shift` characters in the whole. -/
inductive EndsFurther (shift : Nat) {α β : Type} (rel : α → β → Prop) :
    Ending α → Ending β → Prop where
  | ok {value : α} {value' : β} {left left' : Session} (related : rel value value')
    (same : left.SameState left') : EndsFurther shift rel (.ok value left) (.ok value' left')
  | error {failure : Failure} {left left' : Session} (same : left.SameState left') :
    EndsFurther shift rel (.error failure left) (.error (failure.moved shift) left')

theorem Failure.moved_zero (failure : Failure) : failure.moved 0 = failure := by
  cases failure with
  | malformedSource defect => cases defect <;> rfl
  | _ => rfl

namespace EndsFurther

variable {shift : Nat} {α β γ δ : Type} {rel : α → β → Prop} {rel' : γ → δ → Prop}
  {session session' : Session}

theorem bind {first : Routine α} {first' : Routine β} {next : α → Routine γ}
    {next' : β → Routine δ} (head : EndsFurther shift rel (first session) (first' session'))
    (tail : ∀ value value' mid mid', first session = .ok value mid → rel value value' →
      mid.SameState mid' → EndsFurther shift rel' (next value mid) (next' value' mid')) :
    EndsFurther shift rel' ((first >>= next) session) ((first' >>= next') session') := by
  cases result : first session with
  | ok value mid =>
    rw [result] at head
    rw [bind_ok result]
    cases result' : first' session' with
    | ok value' mid' =>
      rw [result'] at head
      cases head with
      | ok related same =>
        rw [bind_ok result']
        exact tail _ _ _ _ result related same
    | error failure left =>
      rw [result'] at head
      cases head
  | error failure left =>
    rw [result] at head
    rw [bind_error result]
    cases result' : first' session' with
    | ok value' mid' =>
      rw [result'] at head
      cases head
    | error failure' left' =>
      rw [result'] at head
      cases head with
      | error same =>
        rw [bind_error result']
        exact .error same

theorem imp {rel' : α → β → Prop} {ending : Ending α} {ending' : Ending β}
    (ends : EndsFurther shift rel ending ending')
    (implies : ∀ value value' left, ending = .ok value left → rel value value' →
      rel' value value') :
    EndsFurther shift rel' ending ending' := by
  cases ends with
  | ok related same => exact .ok (implies _ _ _ rfl related) same
  | error same => exact .error same

/-- What a routine does after any other events it does after all of them. -/
theorem of_continues {routine routine' : Routine α} (same : session.SameState session')
    (itself : ∀ past, Continues past 0 α routine routine)
    (further : ∀ past, Continues past shift α routine routine') :
    EndsFurther shift Eq (routine session) (routine' session') := by
  obtain ⟨journal, rfl⟩ := same
  have before := itself session.journal { session with journal := #[] }
  have after := further journal { session with journal := #[] }
  simp only [Session.afterEvents_journal] at before after
  rw [before, after]
  cases routine { session with journal := #[] } with
  | ok value left => exact .ok rfl (Session.sameState_afterEvents _ _ left)
  | error failure left =>
    rw [Ending.changed, Ending.changed, failure.moved_zero]
    exact .error (Session.sameState_afterEvents _ _ left)

theorem evaluateDatum (same : session.SameState session') (reading : Reader.ReadStack) (room : Nat)
    (datum : Datum) :
    EndsFurther shift Eq (evaluateDatum ⟨reading, .withRoom room⟩ datum session)
      (Routine.evaluateDatum ⟨reading, .withRoom room⟩ datum session') :=
  of_continues same (fun _ => Continues.evaluateDatum reading reading room datum)
    fun _ => Continues.evaluateDatum reading reading room datum

end EndsFurther

/-! ### One datum after the other -/

/-- The machine that has this room for nested calls of the reader and for nested evaluations. -/
def Host.withRoom (reading evaluating : Nat) : Host := ⟨.withRoom reading, .withRoom evaluating⟩

namespace Routine

/-- Reading the next datum leaves the session as it is. -/
theorem readNext_ok_cases {host : Host} {stream : TokenStream} {session mid : Session}
    {found : Option (Datum × TokenStream)} (result : readNext host stream session = .ok found mid) :
    mid = session ∧ ∃ datum left, Reader.datum? host.reading stream = .ok datum left ∧
      found = datum.map (·, left) := by
  cases read : Reader.datum? host.reading stream with
  | ok datum left =>
    rw [readNext_of_ok read] at result
    cases result
    exact ⟨rfl, datum, left, rfl, rfl⟩
  | error failure left =>
    rw [readNext_of_error read] at result
    exact absurd result (guarded_throw_ne_ok failure session mid found)

theorem exists_of_bind_eq_ok {α β : Type} {first : Routine α} {next : α → Routine β}
    {session left : Session} {value : β} (result : (first >>= next) session = .ok value left) :
    ∃ found mid, first session = .ok found mid ∧ next found mid = .ok value left := by
  cases head : first session with
  | ok found mid =>
    rw [bind_ok head] at result
    exact ⟨found, mid, rfl, result⟩
  | error failure mid =>
    rw [bind_error head] at result
    cases result

section Machine

variable {reading evaluating : Nat} {session session' : Session}

/-- Reading goes on further alike, and leaves the stream with its failure further on. -/
theorem readNext_further (shift : Nat) (stream : TokenStream) (same : session.SameState session') :
    EndsFurther shift
      (fun found found' => found' = found.map fun (datum, left) => (datum, left.moved shift))
      (readNext (.withRoom reading evaluating) stream session)
      (readNext (.withRoom reading evaluating) (stream.moved shift) session') := by
  have moved := Reader.datum?_moved reading shift stream
  cases read : Reader.datum? (.withRoom reading) stream with
  | ok datum left =>
    rw [read] at moved
    rw [readNext_of_ok read, readNext_of_ok moved]
    refine .ok ?_ same
    cases datum <;> rfl
  | error failure left =>
    rw [read] at moved
    have further (shift : Nat) (past : Array Event) : Continues past shift
        (Option (Datum × TokenStream)) (guarded (throw failure))
        (guarded (throw (failure.moved shift))) :=
      Mirrors.guarded (Session.unseen_afterEvents past shift) fun _ => rfl
    have itself (past : Array Event) := further 0 past
    rw [failure.moved_zero] at itself
    rw [readNext_of_error read, readNext_of_error moved]
    apply (EndsFurther.of_continues same itself (further shift)).imp
    intro found _ left result
    exact absurd result (guarded_throw_ne_ok failure session left found)

/-- The rest of a stream is evaluated further alike, if the same value came last. -/
theorem evaluateStream_further (shift rounds forms forms' : Nat) (stream : TokenStream)
    (result : Handle) (same : session.SameState session') :
    EndsFurther shift (fun found found' => found'.2 = found.2)
      (evaluateStream (.withRoom reading evaluating) rounds forms stream result session)
      (evaluateStream (.withRoom reading evaluating) rounds forms' (stream.moved shift) result
        session') := by
  induction rounds generalizing forms forms' stream result session session' with
  | zero => exact .ok rfl same
  | succ rounds ih =>
    apply (readNext_further shift stream same).bind
    rintro found _ mid mid' _ rfl same
    cases found with
    | none => exact .ok rfl same
    | some next =>
      apply (EndsFurther.evaluateDatum same _ evaluating next.1).bind
      rintro value _ last last' _ rfl same
      exact ih _ _ next.2 value same

/-- A stream is evaluated further alike. Where it has no datum, what came before it stays the last
value. -/
theorem evaluateStream_further_last (shift rounds forms forms' : Nat) (stream : TokenStream)
    (result result' : Handle) (same : session.SameState session') :
    EndsFurther shift
      (fun found found' => found'.2 = if stream.items = [] then result' else found.2)
      (evaluateStream (.withRoom reading evaluating) (rounds + 1) forms stream result session)
      (evaluateStream (.withRoom reading evaluating) (rounds + 1) forms' (stream.moved shift)
        result' session') := by
  apply (readNext_further shift stream same).bind
  rintro found _ mid mid' next_read rfl same
  obtain ⟨-, datum, left, read, rfl⟩ := readNext_ok_cases next_read
  cases datum with
  | none =>
    obtain rfl := Reader.datum?_none_cases read
    exact .ok rfl same
  | some datum =>
    have goes_on : stream.items ≠ [] := by
      intro ended
      obtain ⟨items, failure⟩ := stream
      subst ended
      cases failure <;> cases read
    simp only [if_neg goes_on]
    apply (EndsFurther.evaluateDatum same _ evaluating datum).bind
    rintro value _ last last' _ rfl same
    exact evaluateStream_further shift rounds _ _ left value same

/-- A round more than there are tokens is enough. -/
theorem evaluateStream_rounds {stream : TokenStream}
    (lexemes : ∀ token ∈ stream.items, token.IsLexeme) {rounds rounds' : Nat}
    (enough : stream.items.length < rounds) (enough' : stream.items.length < rounds')
    (forms : Nat) (result : Handle) (session : Session) :
    evaluateStream (.withRoom reading evaluating) rounds forms stream result session =
      evaluateStream (.withRoom reading evaluating) rounds' forms stream result session := by
  induction rounds generalizing rounds' forms stream result session with
  | zero => exact absurd enough (Nat.not_lt_zero _)
  | succ rounds ih =>
    obtain ⟨rounds', rfl⟩ := Nat.exists_eq_add_one_of_ne_zero (Nat.ne_zero_of_lt enough')
    rw [evaluateStream, evaluateStream]
    apply bind_congr_of_ok
    intro found mid next_read
    obtain ⟨-, datum, left, read, rfl⟩ := readNext_ok_cases next_read
    cases datum with
    | none => rfl
    | some datum =>
      obtain ⟨taken, rest, nonempty, same, rfl, -⟩ := Reader.datum?_some_cases lexemes read
      have positive := List.length_pos_iff.mpr nonempty
      rw [same] at lexemes enough enough'
      rw [List.length_append] at enough enough'
      apply bind_congr_of_ok
      intro value last _
      apply ih
      · exact fun token member => lexemes token (List.mem_append_right taken member)
      · dsimp only
        omega
      · dsimp only
        omega

/-- Behind tokens that are evaluated, evaluation goes on with what follows them. -/
theorem evaluateStream_append {rounds forms forms' : Nat} {stream : TokenStream}
    {result value : Handle} {left : Session} (lexemes : ∀ token ∈ stream.items, token.IsLexeme)
    (enough : stream.items.length < rounds)
    (evaluated : evaluateStream (.withRoom reading evaluating) rounds forms stream result session =
      .ok (forms', value) left) :
    stream.failure = none ∧ ∀ later : TokenStream, (∀ token ∈ later.items, token.IsLexeme) →
      ∀ rounds', stream.items.length + later.items.length < rounds' →
        evaluateStream (.withRoom reading evaluating) rounds' forms (later.prepend stream.items)
            result session =
          evaluateStream (.withRoom reading evaluating) (later.items.length + 1) forms' later value
            left := by
  induction rounds generalizing forms stream result session with
  | zero => exact absurd enough (Nat.not_lt_zero _)
  | succ rounds ih =>
    rw [evaluateStream] at evaluated
    obtain ⟨found, mid, next_read, evaluated⟩ := exists_of_bind_eq_ok evaluated
    obtain ⟨rfl, datum, rest, read, rfl⟩ := readNext_ok_cases next_read
    cases datum with
    | none =>
      obtain rfl := Reader.datum?_none_cases read
      cases evaluated
      refine ⟨rfl, fun later lexemes rounds' enough' => ?_⟩
      rw [show (Listing.empty : TokenStream).items.length = 0 from rfl, Nat.zero_add] at enough'
      exact evaluateStream_rounds lexemes enough' (Nat.lt_succ_self _) _ _ _
    | some datum =>
      obtain ⟨taken, others, nonempty, same, rfl, reads⟩ := Reader.datum?_some_cases lexemes read
      obtain ⟨first, last, evaluates, evaluated⟩ := exists_of_bind_eq_ok evaluated
      have positive := List.length_pos_iff.mpr nonempty
      rw [same] at lexemes enough
      rw [List.length_append] at enough
      obtain ⟨complete, goes_on⟩ := ih
        (fun token member => lexemes token (List.mem_append_right taken member))
        (by dsimp only; omega) evaluated
      refine ⟨complete, fun later later_lexemes rounds' enough' => ?_⟩
      obtain ⟨rounds', rfl⟩ := Nat.exists_eq_add_one_of_ne_zero (Nat.ne_zero_of_lt enough')
      have reads_on := reads (others ++ later.items) later.failure
      rw [← List.append_assoc, ← same] at reads_on
      rw [evaluateStream, bind_ok (readNext_of_ok reads_on mid)]
      refine (bind_ok evaluates).trans ?_
      apply goes_on later later_lexemes
      rw [same, List.length_append] at enough'
      dsimp only
      omega

end Machine

/-! ### Sources -/

theorem evaluateSource_eq (host : Host) (source : String) (session : Session) :
    evaluateSource host source session =
      (do
        let found ← evaluateStream host ((Token.scan source).items.length + 1) 0 (Token.scan source)
          session.store.heap.nil
        report (.programEvaluated found.1 (← get).steps)
        return found.2 : Routine Handle) session :=
  rfl

/-- The tokens of two texts on lines of their own. -/
theorem scan_append_newline {first second : String} (complete : (Token.scan first).failure = none) :
    Token.scan (first ++ "\n" ++ second) =
      Listing.prepend (Token.scan first).items
        (TokenStream.moved (first.length + 1) (Token.scan second)) := by
  have shown : (first ++ "\n" ++ second).toList = first.toList ++ '\n' :: second.toList := by
    simp [String.toList_append]
  unfold Token.scan at complete ⊢
  rw [shown, Token.scanFrom_append_newline 0 _ _ complete, ← Token.scanFrom_add, Nat.zero_add,
    String.length_toList]
  ac_rfl

/-- On a machine with the same room throughout. -/
theorem evaluateSource_further {reading evaluating : Nat} {first : String} {session left : Session}
    {value : Handle}
    (evaluated : evaluateSource (.withRoom reading evaluating) first session = .ok value left)
    (second : String) :
    EndsFurther (first.length + 1)
      (fun found found' => found' = if (Token.scan second).items = [] then value else found)
      (evaluateSource (.withRoom reading evaluating) second left)
      (evaluateSource (.withRoom reading evaluating) (first ++ "\n" ++ second) session) := by
  have lexemes (source : String) : ∀ token ∈ (Token.scan source).items, token.IsLexeme :=
    fun _ => Token.isLexeme_of_mem_scan
  rw [evaluateSource_eq] at evaluated
  obtain ⟨⟨forms, result⟩, mid, stream_evaluated, reported⟩ := exists_of_bind_eq_ok evaluated
  cases reported
  obtain ⟨complete, goes_on⟩ :=
    evaluateStream_append (lexemes first) (Nat.lt_succ_self _) stream_evaluated
  have whole := goes_on (TokenStream.moved (first.length + 1) (Token.scan second)) (lexemes second)
    ((Token.scan (first ++ "\n" ++ second)).items.length + 1) (by
      rw [scan_append_newline complete]
      simp [Listing.prepend])
  rw [← scan_append_newline complete] at whole
  rw [evaluateSource_eq, evaluateSource_eq]
  apply EndsFurther.bind
  · rw [whole]
    exact evaluateStream_further_last _ _ _ _ _ _ _ ⟨mid.journal, rfl⟩
  · rintro found found' last last' _ related ⟨journal, rfl⟩
    exact .ok related ⟨_, rfl⟩

/-- A machine that does not run out of the stack is as good as a roomier one. -/
theorem evaluateSource_withRoom {host : Host} {session : Session} {source : String}
    (entered : session.scopes.active ≠ [])
    (roomy : ∀ left, evaluateSource host source session ≠ .error .recursionDepthExceeded left)
    {reading evaluating : Nat} (reads : host.reading.room ≤ reading)
    (evaluates : host.evaluating.room ≤ evaluating) :
    evaluateSource (.withRoom reading evaluating) source session =
      evaluateSource host source session := by
  have fits : host.FitsIn (.withRoom reading evaluating) :=
    ⟨⟨reading - host.reading.room, (Nat.add_sub_cancel' reads).symm, nofun⟩,
      evaluating - host.evaluating.room, (Nat.add_sub_cancel' evaluates).symm, nofun⟩
  rcases (evaluateSource_settlesAlike fits entered source).2 with same | ⟨left, exhausted⟩
  · exact same.symm
  · exact absurd exhausted (roomy left)

end Routine

/-- A program can be given in pieces. If a text has been evaluated in a session, then another text
ends after it as both texts together end on lines of their own in the first place: either both fail
or both have a value, and the sessions that are left are the same but for what was reported. The
failures are the same, except that a place in the text lies further on by the length of the first
text and the end of its line. The value is that of the second text, or that of the first one if the
second one has no datum.

This holds on all machines that do not have their stack found used up. On a machine with the same
room throughout it holds in any case, so the stack is found used up in the whole just if it is in
the second piece. -/
theorem evaluateSource_in_pieces (session : Session) (entered : session.scopes.active ≠ [])
    (first second : String) :
    let Fits (value : Handle) (piece whole : Ending Handle) :=
      EndsFurther (first.length + 1)
        (fun found found' => found' = if (Token.scan second).items = [] then value else found)
        piece whole
    (∀ (host host' host'' : Host) value left,
      evaluateSource host first session = .ok value left →
      (∀ last, evaluateSource host' second left ≠ .error .recursionDepthExceeded last) →
      (∀ last, evaluateSource host'' (first ++ "\n" ++ second) session ≠
        .error .recursionDepthExceeded last) →
      Fits value (evaluateSource host' second left)
        (evaluateSource host'' (first ++ "\n" ++ second) session)) ∧
    (∀ reading evaluating value left,
      evaluateSource (.withRoom reading evaluating) first session = .ok value left →
      Fits value (evaluateSource (.withRoom reading evaluating) second left)
        (evaluateSource (.withRoom reading evaluating) (first ++ "\n" ++ second) session)) := by
  intro Fits
  refine ⟨fun host host' host'' value left evaluated roomy roomy' => ?_,
    fun reading evaluating value left evaluated => evaluateSource_further evaluated second⟩
  let reading := host.reading.room + host'.reading.room + host''.reading.room
  let evaluating := host.evaluating.room + host'.evaluating.room + host''.evaluating.room
  have settles := (evaluateSource_settlesAlike
    (⟨⟨0, .refl _⟩, 0, .refl _⟩ : host.FitsIn host) entered first).1
  rw [evaluated] at settles
  have entered' : left.scopes.active ≠ [] := settles ▸ entered
  have before : evaluateSource (.withRoom reading evaluating) first session = .ok value left := by
    rw [← evaluated]
    refine evaluateSource_withRoom entered (fun last failed => ?_) (by omega) (by omega)
    rw [evaluated] at failed
    cases failed
  have ends := evaluateSource_further before second
  rw [evaluateSource_withRoom entered' roomy (by omega) (by omega),
    evaluateSource_withRoom entered roomy' (by omega) (by omega)] at ends
  exact ends

/-- A new session in which a text has been evaluated that ends in a comment. -/
def noted : Session := (evaluateSource .standard "5 ; five").after (.start .standard 0)

/-- The comma that ends the second piece stands at another place in the whole. -/
theorem evaluateSource_in_pieces_of_comma :
    ∃ value, evaluateSource .standard "5 ; five" (.start .standard 0) = .ok value noted ∧
      (evaluateSource .standard "6 ,").failure? noted =
        some (.malformedSource (.unexpectedChar 2 ',')) ∧
      (evaluateSource exitless "5 ; five\n6 ,").failure? (.start .standard 0) =
        some (.malformedSource (.unexpectedChar 11 ',')) ∧
      EndsFurther 9 (fun found found' => found' = found) (evaluateSource .standard "6 ," noted)
        (evaluateSource exitless "5 ; five\n6 ," (.start .standard 0)) := by
  have first_scanned : Token.scan "5 ; five" = ⟨[⟨.symbol, "5"⟩], none⟩ := by cbv
  have second_scanned : Token.scan "6 ," =
      ⟨[⟨.symbol, "6"⟩], some (.malformedSource (.unexpectedChar 2 ','))⟩ := by cbv
  have whole_scanned : Token.scan "5 ; five\n6 ," = ⟨[⟨.symbol, "5"⟩, ⟨.symbol, "6"⟩],
      some (.malformedSource (.unexpectedChar 11 ','))⟩ := by cbv
  have succeeds : (evaluateSource .standard "5 ; five").failure? (.start .standard 0) = none := by
    simp only [failure?, evaluateSource_eq, first_scanned, List.length_singleton, Nat.reduceAdd,
      evaluateStream, evaluateDatum, embed_eq_embedded]
    decide +kernel
  have fails : (evaluateSource .standard "6 ,").failure? noted =
      some (.malformedSource (.unexpectedChar 2 ',')) := by
    simp only [failure?, noted, after, evaluateSource_eq, first_scanned, second_scanned,
      List.length_singleton, Nat.reduceAdd, evaluateStream, evaluateDatum, embed_eq_embedded]
    decide +kernel
  have whole_fails : (evaluateSource exitless "5 ; five\n6 ,").failure? (.start .standard 0) =
      some (.malformedSource (.unexpectedChar 11 ',')) := by
    simp only [failure?, evaluateSource_eq, whole_scanned, List.length_cons, List.length_nil,
      Nat.reduceAdd, evaluateStream, evaluateDatum, embed_eq_embedded]
    decide +kernel
  have not_exhausted {host : Host} {source : String} {session : Session} {defect : SourceDefect}
      (fails : (evaluateSource host source).failure? session = some (.malformedSource defect))
      (last : Session) :
      evaluateSource host source session ≠ .error .recursionDepthExceeded last := by
    intro exhausted
    rw [failure?, exhausted] at fails
    cases fails
  cases evaluated : evaluateSource .standard "5 ; five" (.start .standard 0) with
  | error failure last =>
    rw [failure?, evaluated] at succeeds
    cases succeeds
  | ok value last =>
    have same : last = noted := by rw [noted, after, evaluated]
    subst same
    have ends := (evaluateSource_in_pieces (.start .standard 0) (by decide) "5 ; five" "6 ,").1
      .standard .standard exitless value noted evaluated (not_exhausted fails)
      (not_exhausted whole_fails)
    simp only [second_scanned, reduceCtorEq, ↓reduceIte] at ends
    exact ⟨value, rfl, fails, whole_fails, ends⟩

end ScopedLisp
