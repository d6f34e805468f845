import ScopedLisp.Proofs.Datum.Acceptance
import ScopedLisp.Proofs.Datum.Building
import ScopedLisp.Proofs.Token.Seam

/-!
# Reading across the end of a text

A datum that is read from the tokens of a text is read from them too if the tokens of another text
follow. And the other text is read as it is by itself, except that the failure which ends it may
tell a place further on.
-/

namespace ScopedLisp

/-- A failure about a token does not tell positions, so it does not move. -/
theorem Failure.moved_of_isOfTokens {failure : Failure} (ofTokens : failure.isOfTokens = true)
    (shift : Nat) : failure.moved shift = failure := by
  cases failure with
  | malformedSource defect =>
    cases defect with
    | unexpectedChar position c => cases ofTokens
    | _ => rfl
  | _ => rfl

namespace Reader

variable {α β : Type}

/-! ### The depth of what is read -/

/-- What is read is no deeper than there is room. -/
theorem building_depth :
    Building (fun _ => True) (fun _ => True) fun room datum => datum.depth ≤ room where
  malformed _ := trivial
  exhausted := trivial
  refused _ _ := trivial
  word _ word := by
    rw [Datum.depth_of_isWord (isWord_of_wordDatum word)]
    exact Nat.succ_le_succ (Nat.zero_le _)
  quoted {room datum} low := by
    have positive := depth_pos datum
    simp only [Datum.quoted, Datum.depth, Datum.depthAll]
    omega
  list low := by
    rw [Datum.depth]
    exact Nat.succ_le_succ (Datum.depthAll_le_iff.mpr low)
  dotted low last := by
    rw [Datum.depth]
    exact Nat.succ_le_succ (Nat.max_le.mpr ⟨Datum.depthAll_le_iff.mpr low, last⟩)

/-- What is read is no deeper than the room that was left for it. -/
theorem depth_le_of_readFrom {stack : ReadStack} {room : Nat} {token : Token}
    {stream left : TokenStream} {datum : Datum}
    (read : readFrom stack room token stream = .ok datum left) : datum.depth ≤ room := by
  have reads : ReadsTo _ _ _ (readFrom stack room token stream) :=
    building_depth.readFrom stack room trivial stream ⟨fun _ _ => trivial, fun _ _ => trivial⟩
  rw [read] at reads
  exact reads.2

/-! ### Data in front of other tokens -/

/-- Where the first reader returns something, it has met no failure, and the second one returns the
same from a stream without a failure. -/
def MeetsNoFailure (reader reader' : Reader α) : Prop :=
  ∀ stream value left, reader stream = .ok value left →
    left.failure = stream.failure ∧
      reader' { stream with failure := none } = .ok value { left with failure := none }

namespace MeetsNoFailure

/-- Two readers that do not come to the failure of a stream do not come to it one after the
other. -/
theorem bind {first first' : Reader α} {next next' : α → Reader β}
    (head : MeetsNoFailure first first')
    (tail : ∀ value, MeetsNoFailure (next value) (next' value)) :
    MeetsNoFailure (first >>= next) (first' >>= next') := by
  intro stream value left read
  cases result : first stream with
  | error failure mid =>
    rw [Routine.bind_error result] at read
    cases read
  | ok found mid =>
    rw [Routine.bind_ok result] at read
    obtain ⟨kept, same⟩ := head stream found mid result
    obtain ⟨kept', same'⟩ := tail found mid value left read
    exact ⟨kept'.trans kept, (Routine.bind_ok same).trans same'⟩

theorem atEnd : MeetsNoFailure atEnd atEnd := by
  rintro ⟨items, failure⟩ value left read
  cases failure <;> cases read
  exact ⟨rfl, rfl⟩

theorem peek : MeetsNoFailure peek peek := by
  rintro ⟨items, failure⟩ value left read
  cases items with
  | nil => exact atEnd _ value left read
  | cons token rest =>
    cases read
    exact ⟨rfl, rfl⟩

theorem next : MeetsNoFailure next next := by
  rintro ⟨items, failure⟩ value left read
  cases items with
  | nil => exact atEnd _ value left read
  | cons token rest =>
    cases read
    exact ⟨rfl, rfl⟩

/-- Reading a datum in front of a failure does not look at it. -/
theorem relation (room : Nat) :
    ReadingRelation (.withRoom room) (.withRoom room) 0 fun _ => MeetsNoFailure where
  room := rfl
  pure value := by
    rintro stream _ left ⟨⟩
    exact ⟨rfl, rfl⟩
  bind := bind
  fail _ := by
    intro stream value left read
    cases read
  peek := peek
  next := next
  counting same := fun stream => same stream.items.length stream
  reach _ := by
    rintro stream _ left ⟨⟩
    exact ⟨rfl, rfl⟩
  exhausted _ := by
    intro stream value left read
    cases read

end MeetsNoFailure

variable {room : Nat}

/-- The next datum is read from some tokens at the beginning, and it is read from them as well where
something else follows. -/
theorem datum?_some_cases {stream left : TokenStream} {datum : Datum}
    (lexemes : ∀ token ∈ stream.items, token.IsLexeme)
    (read : datum? (.withRoom room) stream = .ok (some datum) left) :
    ∃ taken rest, taken ≠ [] ∧ stream.items = taken ++ rest ∧ left = { stream with items := rest } ∧
      ∀ more failure, datum? (.withRoom room) ⟨taken ++ more, failure⟩ =
        .ok (some datum) ⟨more, failure⟩ := by
  obtain ⟨kept, without⟩ := (MeetsNoFailure.relation room).datum? stream _ left read
  obtain ⟨tokens, failure⟩ := stream
  cases tokens with
  | nil =>
    rw [show datum? (.withRoom room) ⟨[], none⟩ = .ok none ⟨[], none⟩ from rfl] at without
    cases without
  | cons token others =>
    have recognized := readFrom_recognized room room token others lexemes
    rw [datum?_cons] at without
    cases result : readFrom (.withRoom room) room token ⟨token :: others, none⟩ with
    | error cause after =>
      rw [Routine.bind_error result] at without
      cases without
    | ok found after =>
      rw [result] at recognized
      rw [Routine.bind_ok result] at without
      obtain ⟨taken, rest, rfl, same, derives⟩ := recognized
      have low := depth_le_of_readFrom result
      cases without
      refine ⟨taken, left.items, ?_, same, ?_, fun more failure => datum?_of_derives derives low⟩
      · rintro rfl
        have back : ReadsBack (readFrom (.withRoom room) room) [] datum :=
          readsBack_of_derives derives low
        obtain ⟨first, later, ⟨⟩, -⟩ := back
      · rw [← kept]

/-- No datum is left just where the stream is at its end. -/
theorem datum?_none_cases {stream left : TokenStream}
    (read : datum? (.withRoom room) stream = .ok none left) : stream = .empty := by
  obtain ⟨tokens, failure⟩ := stream
  cases tokens with
  | nil =>
    cases failure with
    | none => rfl
    | some failure =>
      rw [show datum? (.withRoom room) ⟨[], some failure⟩ = .error failure ⟨[], none⟩ from rfl]
        at read
      cases read
  | cons token others =>
    rw [datum?_cons] at read
    cases result : readFrom (.withRoom room) room token ⟨token :: others, failure⟩ with
    | error cause after =>
      rw [Routine.bind_error result] at read
      cases read
    | ok found after =>
      rw [Routine.bind_ok result] at read
      cases read

/-! ### Streams with a failure further on -/

/-- The result with the failure moved, be it the failure of reading or the one behind the tokens. -/
def movedResult (shift : Nat) :
    EStateM.Result Failure TokenStream α → EStateM.Result Failure TokenStream α
  | .ok value left => .ok value (left.moved shift)
  | .error failure left => .error (failure.moved shift) (left.moved shift)

/-- On the moved stream the second reader does what the first one does. -/
def ReadsMoved (shift : Nat) (reader reader' : Reader α) : Prop :=
  ∀ stream : TokenStream, reader' (stream.moved shift) = movedResult shift (reader stream)

namespace ReadsMoved

variable {shift : Nat}

/-- Two readers that follow the move do so one after the other. -/
theorem bind {first first' : Reader α} {next next' : α → Reader β}
    (head : ReadsMoved shift first first')
    (tail : ∀ value, ReadsMoved shift (next value) (next' value)) :
    ReadsMoved shift (first >>= next) (first' >>= next') := by
  intro stream
  have same := head stream
  cases result : first stream with
  | ok value mid =>
    rw [result] at same
    rw [Routine.bind_ok result, Routine.bind_ok same]
    exact tail value mid
  | error failure left =>
    rw [result] at same
    rw [Routine.bind_error result, Routine.bind_error same]
    rfl

theorem atEnd : ReadsMoved shift atEnd atEnd := by
  rintro ⟨items, failure⟩
  cases failure <;> rfl

theorem peek : ReadsMoved shift peek peek := by
  rintro ⟨items, failure⟩
  cases items with
  | nil => exact atEnd ⟨[], failure⟩
  | cons token rest => rfl

theorem next : ReadsMoved shift next next := by
  rintro ⟨items, failure⟩
  cases items with
  | nil => exact atEnd ⟨[], failure⟩
  | cons token rest => rfl

/-- Whatever a datum is read by follows the move of the stream. -/
theorem relation (room shift : Nat) :
    ReadingRelation (.withRoom room) (.withRoom room) 0 fun _ => ReadsMoved shift where
  room := rfl
  pure _ := fun _ => rfl
  bind := bind
  fail ofTokens := by
    intro stream
    exact congrArg (EStateM.Result.error · (stream.moved shift))
      (Failure.moved_of_isOfTokens ofTokens shift).symm
  peek := peek
  next := next
  counting same := fun stream => same stream.items.length stream
  reach _ := fun _ => rfl
  exhausted _ := fun _ => rfl

end ReadsMoved

/-- The next datum of a moved stream is the same, and failures and what is left are moved. -/
theorem datum?_moved (room shift : Nat) (stream : TokenStream) :
    datum? (.withRoom room) (stream.moved shift) =
      movedResult shift (datum? (.withRoom room) stream) :=
  (ReadsMoved.relation room shift).datum? stream

end Reader

end ScopedLisp
