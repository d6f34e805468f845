import ScopedLisp.Proofs.Datum.Relation
import ScopedLisp.Proofs.Ending

/-!
# Reading on a finite stack

A reader that is found short of stack fails with `stackExhausted`, and otherwise does what it does
on any roomier stack. All its other failures are about the text.
-/

namespace ScopedLisp

/-- The failure is about the text of a source. -/
def Failure.isOfText : Failure → Bool
  | .malformedSource _ | .tooManyDigits => true
  | _ => false

theorem Failure.isOfText_of_isOfTokens {failure : Failure} (ofTokens : failure.isOfTokens = true) :
    failure.isOfText = true := by
  cases failure with
  | malformedSource _ | tooManyDigits => rfl
  | _ => cases ofTokens

/-- The failure that waits behind the tokens, if there is one, is about the text. -/
def TokenStream.EndsPlainly (stream : TokenStream) : Prop :=
  ∀ failure, stream.failure = some failure → failure.isOfText = true

/-- The failure that waits behind the tokens of a text is that the rest of the text has no tokens.
-/
theorem Token.exists_of_scanFrom_failure {position : Nat} {cs : List Char} {failure : Failure}
    (waits : (scanFrom position cs).failure = some failure) :
    ∃ defect, failure = .malformedSource defect := by
  fun_induction scanFrom position cs with
  | case1 => cases waits
  | case2 position c rest defect found =>
    cases waits
    exact ⟨defect, rfl⟩
  | case3 position c rest lexeme found following kind named ih => exact ih waits
  | case4 position c rest lexeme found following unnamed ih => exact ih waits

/-- What is scanned from a text ends with the text, or with a failure about the text. -/
theorem Token.scanFrom_endsPlainly (position : Nat) (cs : List Char) :
    TokenStream.EndsPlainly (scanFrom position cs) := by
  intro failure waits
  obtain ⟨defect, rfl⟩ := exists_of_scanFrom_failure waits
  rfl

namespace Reader

variable {stack stack' : ReadStack} {more : Nat} {α β : Type}

/-- A stream that ends plainly is left, or the failure is about the text or the exhaustion of the
host's stack. -/
def EndsWell : EStateM.Result Failure TokenStream α → Prop
  | .ok _ left => left.EndsPlainly
  | .error failure _ => failure = .stackExhausted ∨ failure.isOfText = true

/-- On every stream that ends plainly, the first reader ends well, and as the second one does
unless the host's stack is used up. -/
def ReadsAlike (reader reader' : Reader α) : Prop :=
  ∀ stream, stream.EndsPlainly →
    EqualUnless .stackExhausted (reader stream) (reader' stream) ∧ EndsWell (reader stream)

namespace ReadsAlike

/-- Readers that read alike, one after the other, read alike. -/
theorem bind {first first' : Reader α} {next next' : α → Reader β}
    (head : ReadsAlike first first') (tail : ∀ value, ReadsAlike (next value) (next' value)) :
    ReadsAlike (first >>= next) (first' >>= next') := by
  intro stream plain
  obtain ⟨ends, kept⟩ := head stream plain
  cases result : first stream with
  | ok value mid =>
    rw [result] at kept
    refine ⟨ends.bind fun other left same => ?_, ?_⟩
    · rw [result] at same
      cases same
      exact (tail value mid kept).1
    · rw [Routine.bind_ok result]
      exact (tail value mid kept).2
  | error failure left =>
    rw [result] at kept
    refine ⟨ends.bind fun other mid same => ?_, ?_⟩
    · rw [result] at same
      cases same
    · rw [Routine.bind_error result]
      exact kept

theorem atEnd {stream : TokenStream} (plain : stream.EndsPlainly) :
    EndsWell (Reader.atEnd stream) := by
  unfold Reader.atEnd
  cases ending : stream.failure with
  | none => exact plain
  | some failure => exact .inr (plain failure ending)

theorem peek : ReadsAlike peek peek := by
  intro stream plain
  refine ⟨.refl _, ?_⟩
  unfold Reader.peek
  cases stream.items with
  | nil => exact atEnd plain
  | cons token rest => exact plain

/-- Taking a token does not depend on the stack. -/
theorem next : ReadsAlike next next := by
  intro stream plain
  refine ⟨.refl _, ?_⟩
  unfold Reader.next
  cases stream.items with
  | nil => exact atEnd plain
  | cons token rest => exact plain

/-- A level of nesting that can be reached on a stack can be reached on any that it fits in. -/
theorem reach (fits : stack.FitsIn stack' more) (room : Nat) :
    ReadsAlike (reach stack room) (reach stack' (room + more)) := by
  intro stream plain
  simp only [Reader.reach, Bind.bind, EStateM.bind, Routine.get_ok]
  by_cases early : stack.failsAt () room stream = true
  · rw [if_pos early]
    exact ⟨.inr ⟨stream, rfl⟩, .inl rfl⟩
  · rw [if_neg early, if_neg fun late => early (fits.calmer () room stream late)]
    exact ⟨.refl _, plain⟩

/-- Reading is alike on a stack and on any that it fits in, for all that a reader is made of. -/
theorem relation (fits : stack.FitsIn stack' more) :
    ReadingRelation stack stack' more fun _ => ReadsAlike where
  room := fits.room
  pure value := fun stream plain => ⟨.refl (.ok value stream), plain⟩
  bind := bind
  fail ofTokens := fun _ _ => ⟨.refl _, .inr (Failure.isOfText_of_isOfTokens ofTokens)⟩
  peek := peek
  next := next
  counting alike := fun stream plain => alike stream.items.length stream plain
  reach := reach fits
  exhausted _ := fun stream _ => ⟨.inr ⟨stream, rfl⟩, .inl rfl⟩

end ReadsAlike

/-- The next datum is the same on any stack that this one fits in, unless this one is used up. -/
theorem datum?_alike (fits : stack.FitsIn stack' more) :
    ReadsAlike (datum? stack) (datum? stack') :=
  (ReadsAlike.relation fits).datum?

/-- The only datum is the same on any stack that this one fits in, unless this one is used up. -/
theorem single_alike (fits : stack.FitsIn stack' more) :
    ReadsAlike (single stack) (single stack') :=
  (ReadsAlike.relation fits).single

end Reader

end ScopedLisp
