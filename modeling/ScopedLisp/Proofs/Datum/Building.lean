import ScopedLisp.Proofs.Datum.Recognition

/-!
# What reading builds

The reader makes data from the words among the tokens, by quoting and by forming lists. What holds
of the words and is kept by these steps holds of everything that is read. Likewise a failure is one
of the words, of the order of the tokens, of the host's stack, or the one that waits behind the
tokens.
-/

namespace ScopedLisp

namespace Datum

/-- The datum is no list, and no value of the embedding program. -/
def isWord : Datum → Bool
  | .list _ | .dotted _ _ | .foreign _ => false
  | _ => true

/-- Words are one level deep. -/
theorem depth_of_isWord {datum : Datum} (word : datum.isWord = true) : datum.depth = 1 := by
  cases datum with
  | list _ | dotted _ _ => cases word
  | _ => rfl

/-- Items are together as deep as the deepest of them. -/
theorem depthAll_le_iff {items : List Datum} {depth : Nat} :
    depthAll items ≤ depth ↔ ∀ datum ∈ items, datum.depth ≤ depth := by
  induction items with
  | nil => simp [depthAll]
  | cons datum rest ih => rw [depthAll, Nat.max_le, ih, List.forall_mem_cons]

theorem everyLeaf_of_isWord {Holds : Datum → Prop} {datum : Datum} (word : datum.isWord = true)
    (holds : (∀ value, datum ≠ .foreign value) → Holds datum) : datum.EveryLeaf Holds := by
  have not_foreign : ∀ value, datum ≠ .foreign value := by
    intro value same
    rw [same] at word
    cases word
  cases datum with
  | list _ | dotted _ _ => cases word
  | _ => exact holds not_foreign

/-- All leaves of several data are the leaves of each of them. -/
theorem everyLeafOfAll_iff {Holds : Datum → Prop} {items : List Datum} :
    EveryLeafOfAll Holds items ↔ ∀ datum ∈ items, datum.EveryLeaf Holds := by
  induction items with
  | nil => simp [EveryLeafOfAll]
  | cons datum rest ih => rw [EveryLeafOfAll, ih, List.forall_mem_cons]

end Datum

/-- The tokens are admitted, and the failure behind them, if there is one, is permitted. -/
structure TokenStream.Offers (admitted : Token → Prop) (permits : Failure → Prop)
    (stream : TokenStream) : Prop where
  tokens : ∀ token ∈ stream.items, admitted token
  failure : ∀ failure, stream.failure = some failure → permits failure

namespace Reader

variable {admitted : Token → Prop} {permits : Failure → Prop} {α β : Type}

/-- Something good is returned and admitted tokens are left, or the failure is permitted. -/
def ReadsTo (admitted : Token → Prop) (permits : Failure → Prop) (good : α → Prop) :
    EStateM.Result Failure TokenStream α → Prop
  | .ok value left => left.Offers admitted permits ∧ good value
  | .error failure _ => permits failure

/-- So the reader ends on every stream that offers admitted tokens. -/
def Reads (admitted : Token → Prop) (permits : Failure → Prop) (good : α → Prop)
    (reader : Reader α) : Prop :=
  ∀ stream : TokenStream, stream.Offers admitted permits →
    ReadsTo admitted permits good (reader stream)

namespace Reads

variable {good : α → Prop} {good' : β → Prop}

theorem pure {value : α} (met : good value) : Reads admitted permits good (pure value) :=
  fun _ offers => ⟨offers, met⟩

theorem fail {failure : Failure} (permitted : permits failure) :
    Reads admitted permits good (throw failure) := fun _ _ => permitted

theorem ofExcept {result : Except Failure α} (met : ∀ value, result = .ok value → good value)
    (fails : ∀ failure, result = .error failure → permits failure) :
    Reads admitted permits good (ofExcept result) := by
  cases result with
  | ok value => exact pure (met value rfl)
  | error failure => exact fail (fails failure rfl)

/-- A reader that goes on from what the first one built builds what the second one does. -/
theorem bind {first : Reader α} {next : α → Reader β} (head : Reads admitted permits good first)
    (tail : ∀ value, good value → Reads admitted permits good' (next value)) :
    Reads admitted permits good' (first >>= next) := by
  intro stream offers
  have step := head stream offers
  cases result : first stream with
  | ok value mid =>
    rw [result] at step
    rw [Routine.bind_ok result]
    exact tail value step.2 mid step.1
  | error failure mid =>
    rw [result] at step
    rw [Routine.bind_error result]
    exact step

/-- What counts the tokens does so without taking any. -/
theorem counting {next : TokenStream → Reader β}
    (tail : ∀ stream, Reads admitted permits good' (next stream)) :
    Reads admitted permits good' (get >>= next) :=
  fun stream offers => tail stream stream offers

theorem atEnd {stream : TokenStream} (offers : stream.Offers admitted permits) :
    ReadsTo admitted permits (fun found => ∀ token, found = some token → admitted token)
      (atEnd stream) := by
  unfold Reader.atEnd
  cases ending : stream.failure with
  | none => exact ⟨offers, nofun⟩
  | some failure => exact offers.failure failure ending

/-- Looking ahead shows an admitted token, if any. -/
theorem peek :
    Reads admitted permits (fun found => ∀ token, found = some token → admitted token) peek := by
  intro stream offers
  unfold Reader.peek
  cases shape : stream.items with
  | nil => exact atEnd offers
  | cons first rest =>
    refine ⟨offers, ?_⟩
    rintro token ⟨⟩
    exact offers.tokens first (shape ▸ List.mem_cons_self)

theorem next :
    Reads admitted permits (fun found => ∀ token, found = some token → admitted token) next := by
  intro stream offers
  unfold Reader.next
  cases shape : stream.items with
  | nil => exact atEnd offers
  | cons first rest =>
    refine ⟨⟨fun token member => ?_, offers.failure⟩, ?_⟩
    · exact offers.tokens token (shape ▸ List.mem_cons_of_mem first member)
    · rintro token ⟨⟩
      exact offers.tokens first (shape ▸ List.mem_cons_self)

end Reads

/-- What is read from a word is a word. -/
theorem isWord_of_wordDatum {token : Token} {datum : Datum}
    (word : wordDatum token = some (.ok datum)) : datum.isWord = true := by
  unfold wordDatum at word
  split at word
  · have read := Option.some.inj word
    unfold symbolDatum at read
    split at read
    · cases read
    · split at read
      · split at read <;> cases read
        rfl
      · cases read
        rfl
  · cases word
    rfl
  · have read := Option.some.inj word
    unfold characterDatum at read
    dsimp only at read
    split at read
    · cases read
      rfl
    · split at read <;> cases read
      rfl
  · have read := Option.some.inj word
    unfold stringDatum at read
    split at read <;> cases read
    rfl
  all_goals cases word

/-- `built room` holds of what is read with this room for nested calls, if it holds of words and is
kept when data are quoted and when lists are formed. -/
structure Building (admitted : Token → Prop) (permits : Failure → Prop)
    (built : Nat → Datum → Prop) : Prop where
  malformed : ∀ defect, permits (.malformedSource defect)
  exhausted : permits .stackExhausted
  refused : ∀ {token failure}, admitted token → wordDatum token = some (.error failure) →
    permits failure
  word : ∀ {room token datum}, admitted token → wordDatum token = some (.ok datum) →
    built (room + 1) datum
  quoted : ∀ {room datum}, built room datum → built (room + 1) datum.quoted
  list : ∀ {room items}, (∀ item ∈ items, built room item) → built (room + 1) (.list items)
  dotted : ∀ {room items tail}, (∀ item ∈ items, built room item) → built room tail →
    built (room + 1) (.dotted items tail)

namespace Building

variable {built : Nat → Datum → Prop} (law : Building admitted permits built)
include law

/-- Reaching a level of nesting fails only as is permitted. -/
theorem reach (stack : ReadStack) (room : Nat) :
    Reads admitted permits (fun _ => True) (reach stack room) := by
  refine .counting fun stream => ?_
  split
  · exact .fail law.exhausted
  · exact .pure trivial

theorem refuse {good : α → Prop} (defect : SourceDefect) :
    Reads admitted permits good (refuse defect) := .fail (law.malformed defect)

section Lists

variable {readDatum : Token → Reader Datum} {room : Nat}
  (inner : ∀ token, admitted token → Reads admitted permits (built room) (readDatum token))
include inner

/-- A tail is built from a datum behind the dot, which may be one level less deep. -/
theorem readTail {items : List Datum} (before : ∀ item ∈ items, built room item) :
    Reads admitted permits (built (room + 1)) (readTail readDatum items) := by
  unfold Reader.readTail
  split
  · exact law.refuse _
  · apply Reads.peek.bind
    intro found offered
    cases found with
    | none => exact law.refuse _
    | some token =>
      dsimp only
      split
      · exact law.refuse _
      · refine (inner token (offered token rfl)).bind fun tail last => ?_
        refine Reads.peek.bind fun closing _ => ?_
        split
        · refine Reads.next.bind fun _ _ => .pure ?_
          exact law.dotted (fun item member => before item (List.mem_reverse.mp member)) last
        · exact law.refuse _

/-- A list is built from its items, each of which may be one level less deep. -/
theorem readItems (rounds : Nat) {items : List Datum} (before : ∀ item ∈ items, built room item) :
    Reads admitted permits (built (room + 1)) (readItems readDatum rounds items) := by
  induction rounds generalizing items with
  | zero => exact law.refuse _
  | succ rounds ih =>
    apply Reads.peek.bind
    intro found offered
    cases found with
    | none => exact law.refuse _
    | some token =>
      dsimp only
      split
      · refine Reads.next.bind fun _ _ => .pure ?_
        exact law.list fun item member => before item (List.mem_reverse.mp member)
      · split
        · exact Reads.next.bind fun _ _ => law.readTail inner before
        · refine (inner token (offered token rfl)).bind fun item last => ih ?_
          exact List.forall_mem_cons.mpr ⟨last, before⟩

end Lists

/-- The induction is on the room, of which each quote and each parenthesis takes some. -/
theorem readFrom (stack : ReadStack) (room : Nat) {token : Token} (offered : admitted token) :
    Reads admitted permits (built room) (readFrom stack room token) := by
  induction room generalizing token with
  | zero => exact .fail law.exhausted
  | succ room ih =>
    apply (law.reach stack room).bind
    intro _ _
    have word {result : Except Failure Datum} (same : wordDatum token = some result) :
        Reads admitted permits (built (room + 1)) (do let _ ← next; ofExcept result) := by
      refine Reads.next.bind fun _ _ => .ofExcept ?_ ?_
      · rintro datum rfl
        exact law.word offered same
      · rintro failure rfl
        exact law.refused offered same
    unfold wordDatum at word
    generalize token.kind = kind at word ⊢
    cases kind with
    | symbol | boolean | character | string => exact word rfl
    | quote =>
      refine Reads.next.bind fun _ _ => Reads.peek.bind fun found offered => ?_
      cases found with
      | none => exact law.refuse _
      | some first =>
        exact (ih (offered first rfl)).bind fun datum last => .pure (law.quoted last)
    | openList =>
      refine Reads.next.bind fun _ _ => .counting fun stream => ?_
      exact law.readItems (fun token offered => ih offered) _ (List.forall_mem_nil _)
    | closeList => exact law.refuse _
    | other name => exact law.refuse _

/-- The next datum of a stream, if any, is built from what the stream offers. -/
theorem datum? (stack : ReadStack) :
    Reads admitted permits (fun found => ∀ datum, found = some datum → built stack.room datum)
      (datum? stack) := by
  refine (law.reach stack stack.room).bind fun _ _ => Reads.peek.bind fun found offered => ?_
  cases found with
  | none => exact .pure nofun
  | some token =>
    refine (law.readFrom stack stack.room (offered token rfl)).bind fun datum last => .pure ?_
    rintro other ⟨⟩
    exact last

end Building

end Reader

end ScopedLisp
