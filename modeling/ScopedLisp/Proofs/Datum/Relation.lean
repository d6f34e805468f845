import ScopedLisp.Datum.Reader
import ScopedLisp.Proofs.Eval.Reading

/-!
# Relations that reading respects

The reader reaches the stream only by looking at the next token, by taking it and by counting the
tokens that are left, and it consults the host's stack. A relation between readers that holds of
these primitives, and of a sequence whenever it holds of the parts, holds of reading a datum. The
two sides are the same program run twice, perhaps on different stacks and different streams.
-/

namespace ScopedLisp

/-- The failure is about tokens that make up no datum. What scanning fails with is not. -/
def Failure.isOfTokens : Failure → Bool
  | .malformedSource (.unexpectedChar _ _) | .malformedSource .unterminatedComment => false
  | .malformedSource _ | .tooManyDigits => true
  | _ => false

namespace Reader

/-- A symbol or a numeral is only refused for its own text. -/
theorem symbolDatum_failsOfTokens (text : String) :
    FailsWithin Failure.isOfTokens (symbolDatum text) := by
  unfold symbolDatum
  split
  · exact .error rfl
  · split
    · split
      · exact .ok _
      · exact .error rfl
    · exact .ok _

/-- A character is only refused for its own text. -/
theorem characterDatum_failsOfTokens (text : String) :
    FailsWithin Failure.isOfTokens (characterDatum text) := by
  unfold characterDatum
  dsimp only
  split
  · exact .ok _
  · split
    · exact .ok _
    · exact .error rfl

/-- All that can be wrong with the inside of a string is an escape. -/
theorem exists_of_unescape_error {body : List Char} {defect : SourceDefect}
    (fails : Literal.unescape body = .error defect) : ∃ letter, defect = .unknownEscape letter := by
  have map_error {result : Except SourceDefect (List Char)} {c : Char}
      (fails : result.map (c :: ·) = .error defect) : result = .error defect := by
    cases result <;> cases fails
    rfl
  fun_induction Literal.unescape body with
  | case1 => cases fails
  | case2 letter rest c known ih => exact ih (map_error fails)
  | case3 letter rest unknown =>
    cases fails
    exact ⟨letter, rfl⟩
  | case4 c rest other ih => exact ih (map_error fails)

/-- A string is only refused for its own text. -/
theorem stringDatum_failsOfTokens (text : String) :
    FailsWithin Failure.isOfTokens (stringDatum text) := by
  unfold stringDatum
  split
  · exact .ok _
  · next defect fails =>
    obtain ⟨letter, rfl⟩ := exists_of_unescape_error fails
    exact .error rfl

/-- `R` holds of what reading is made of, on `stack` on the left and on `stack'`, which has `more`
room, on the right. -/
structure ReadingRelation (stack stack' : ReadStack) (more : Nat)
    (R : (α : Type) → Reader α → Reader α → Prop) : Prop where
  room : stack'.room = stack.room + more
  pure : ∀ {α : Type} (value : α), R α (pure value) (pure value)
  bind : ∀ {α β : Type} {first first' : Reader α} {next next' : α → Reader β},
    R α first first' → (∀ value, R β (next value) (next' value)) →
      R β (first >>= next) (first' >>= next')
  fail : ∀ {α : Type} {failure : Failure}, failure.isOfTokens = true →
    R α (throw failure) (throw failure)
  peek : R (Option Token) peek peek
  next : R (Option Token) next next
  counting : ∀ {α : Type} {body body' : Nat → Reader α}, (∀ count, R α (body count) (body' count)) →
    R α (do body (← get).items.length) (do body' (← get).items.length)
  reach : ∀ room, R Unit (reach stack room) (reach stack' (room + more))
  exhausted : ∀ token, R Datum (throw .stackExhausted) (readFrom stack' more token)

namespace ReadingRelation

variable {stack stack' : ReadStack} {more : Nat} {R : (α : Type) → Reader α → Reader α → Prop}
  (law : ReadingRelation stack stack' more R)
include law

theorem ofExcept {α : Type} {result : Except Failure α}
    (fails : FailsWithin Failure.isOfTokens result) : R α (ofExcept result) (ofExcept result) := by
  cases result with
  | ok value => exact law.pure value
  | error failure => exact law.fail (fails failure rfl)

section Lists

variable {readDatum readDatum' : Token → Reader Datum}
  (related : ∀ token, R Datum (readDatum token) (readDatum' token))
include related

/-- Tails are read in the relation if data are. -/
theorem readTail (items : List Datum) :
    R Datum (readTail readDatum items) (Reader.readTail readDatum' items) := by
  unfold Reader.readTail
  split
  · exact law.fail rfl
  · apply law.bind law.peek
    intro found
    cases found with
    | none => exact law.fail rfl
    | some token =>
      dsimp only
      split
      · exact law.fail rfl
      · refine law.bind (related token) fun tail => law.bind law.peek fun closing => ?_
        split
        · exact law.bind law.next fun _ => law.pure _
        · exact law.fail rfl

/-- Items are read in the relation if data are. -/
theorem readItems (rounds : Nat) (items : List Datum) :
    R Datum (readItems readDatum rounds items) (Reader.readItems readDatum' rounds items) := by
  induction rounds generalizing items with
  | zero => exact law.fail rfl
  | succ rounds ih =>
    apply law.bind law.peek
    intro found
    cases found with
    | none => exact law.fail rfl
    | some token =>
      dsimp only
      split
      · exact law.bind law.next fun _ => law.pure _
      · split
        · exact law.bind law.next fun _ => law.readTail related items
        · exact law.bind (related token) fun item => ih _

end Lists

/-- Reading from a token stays in the relation. The induction is on the levels of nesting that are
left. -/
theorem readFrom (room : Nat) (token : Token) :
    R Datum (readFrom stack room token) (Reader.readFrom stack' (room + more) token) := by
  induction room generalizing token with
  | zero =>
    rw [Nat.zero_add]
    exact law.exhausted token
  | succ room ih =>
    rw [Nat.succ_add]
    apply law.bind (law.reach room)
    intro _
    cases token.kind with
    | symbol => exact law.bind law.next fun _ => law.ofExcept (symbolDatum_failsOfTokens _)
    | boolean => exact law.bind law.next fun _ => law.pure _
    | character => exact law.bind law.next fun _ => law.ofExcept (characterDatum_failsOfTokens _)
    | string => exact law.bind law.next fun _ => law.ofExcept (stringDatum_failsOfTokens _)
    | quote =>
      refine law.bind law.next fun _ => law.bind law.peek fun found => ?_
      cases found with
      | none => exact law.fail rfl
      | some first => exact law.bind (ih first) fun _ => law.pure _
    | openList =>
      apply law.bind law.next
      intro _
      exact law.counting fun count => law.readItems ih (count + 1) []
    | closeList => exact law.fail rfl
    | other name => exact law.fail rfl

/-- Reading the next datum stays in the relation. -/
theorem datum? : R (Option Datum) (datum? stack) (Reader.datum? stack') := by
  unfold Reader.datum?
  rw [law.room]
  refine law.bind (law.reach stack.room) fun _ => law.bind law.peek fun found => ?_
  cases found with
  | none => exact law.pure _
  | some token => exact law.bind (law.readFrom stack.room token) fun _ => law.pure _

theorem single : R Datum (single stack) (Reader.single stack') := by
  unfold Reader.single
  apply law.bind law.datum?
  intro found
  cases found with
  | none => exact law.fail rfl
  | some datum =>
    apply law.bind law.peek
    intro next
    cases next with
    | none => exact law.pure _
    | some token => exact law.fail rfl

end ReadingRelation

end Reader

end ScopedLisp
