import ScopedLisp.Proofs.Ending
import ScopedLisp.Proofs.Eval.Reading

/-!
# Embedding by recursion

`embedded` places a datum by recursion on its structure: the items from left to right, then the
tail, then the pairs. `embed_eq_embedded` says that working through a list of tasks comes to the
same, for every datum and every session. Placing a datum changes nothing of a session but its
store.
-/

namespace ScopedLisp.Routine

mutual

/-- Places a datum in the heap, by recursion on it. -/
def embedded : Datum → Routine Handle
  | .list items => do
    let handles ← embeddedAll items
    allocateList handles none
  | .dotted items tail => do
    let handles ← embeddedAll items
    let last ← embedded tail
    allocateList handles (some last)
  | .atom name => do allocate (← internAtom name)
  | .integer value => allocate (.integer value)
  | .boolean value => allocate (.boolean value)
  | .string text => do allocate (.string (← insertText text))
  | .character text => allocate (.character text)
  | .foreign value => do throw (.notADatum (← ofExcept value.display))

/-- Places data in the heap from left to right. -/
def embeddedAll : List Datum → Routine (List Handle)
  | [] => return []
  | datum :: rest => do
    let h ← embedded datum
    let handles ← embeddedAll rest
    return h :: handles

end

/-- A list is built from its end. -/
theorem allocateList_cons (item : Handle) (rest : List Handle) (tail : Option Handle) :
    allocateList (item :: rest) tail = (do
      let longer ← allocateList rest tail
      allocate (.pair item longer)) := by
  funext session
  rfl

/-- As many data are placed as there are. -/
theorem length_of_embeddedAll {items : List Datum} {session left : Session} {handles : List Handle}
    (placed : embeddedAll items session = .ok handles left) : handles.length = items.length := by
  induction items generalizing session handles with
  | nil =>
    cases placed
    rfl
  | cons datum rest ih =>
    rw [embeddedAll] at placed
    cases head : embedded datum session with
    | error failure mid =>
      rw [bind_error head] at placed
      cases placed
    | ok h mid =>
      rw [bind_ok head] at placed
      cases tail : embeddedAll rest mid with
      | error failure last =>
        rw [bind_error tail] at placed
        cases placed
      | ok others last =>
        rw [bind_ok tail] at placed
        cases placed
        rw [List.length_cons, List.length_cons, ih tail]

/-- What follows the placing of some items may rely on their number. -/
theorem embeddedAll_bind_congr {α : Type} {items : List Datum}
    {next next' : List Handle → Routine α}
    (same : ∀ handles, handles.length = items.length → next handles = next' handles) :
    (embeddedAll items >>= next) = (embeddedAll items >>= next') := by
  funext session
  cases placed : embeddedAll items session with
  | error failure left => rw [bind_error placed, bind_error placed]
  | ok handles left =>
    rw [bind_ok placed, bind_ok placed, same handles (length_of_embeddedAll placed)]

/-- Building a list from the handles placed last. -/
theorem embedFrom_build (handles placed : List Handle) (rest : List EmbedTask) :
    embedFrom (.build handles.length false :: rest) (handles.reverse ++ placed) =
      (do
        let h ← allocateList handles none
        embedFrom rest (h :: placed)) := by
  rw [embedFrom]
  simp [List.take_left', List.drop_left']

/-- Building a list from the handles placed before its tail, which was placed last. -/
theorem embedFrom_buildDotted (handles placed : List Handle) (last : Handle)
    (rest : List EmbedTask) :
    embedFrom (.build handles.length true :: rest) (last :: (handles.reverse ++ placed)) =
      (do
        let h ← allocateList handles (some last)
        embedFrom rest (h :: placed)) := by
  rw [embedFrom]
  simp [List.take_left', List.drop_left']

mutual

/-- The task of placing a datum is done by placing it by recursion. -/
theorem embedFrom_place (datum : Datum) (rest : List EmbedTask) (placed : List Handle) :
    embedFrom (.place datum :: rest) placed =
      (do
        let h ← embedded datum
        embedFrom rest (h :: placed)) := by
  match datum with
  | .list items =>
    rw [embedFrom, embedFrom_placeAll, embedded, bind_assoc]
    apply embeddedAll_bind_congr
    intro handles length
    rw [← length, embedFrom_build]
  | .dotted items tail =>
    rw [embedFrom, embedFrom_placeAll, embedded, bind_assoc]
    apply embeddedAll_bind_congr
    intro handles length
    rw [embedFrom_place tail, bind_assoc]
    congr 1
    funext last
    rw [← length, embedFrom_buildDotted]
  | .atom name => rw [embedFrom, embedded, bind_assoc]
  | .integer value => rw [embedFrom, embedded]
  | .boolean value => rw [embedFrom, embedded]
  | .string text => rw [embedFrom, embedded, bind_assoc]
  | .character text => rw [embedFrom, embedded]
  | .foreign value =>
    rw [embedFrom, embedded, bind_assoc]
    rfl

/-- The tasks of placing some data are done by placing them by recursion. -/
theorem embedFrom_placeAll (items : List Datum) (rest : List EmbedTask) (placed : List Handle) :
    embedFrom (EmbedTask.placeAll items ++ rest) placed =
      (do
        let handles ← embeddedAll items
        embedFrom rest (handles.reverse ++ placed)) := by
  match items with
  | [] =>
    rw [embeddedAll, pure_bind]
    rfl
  | datum :: others =>
    have head := embedFrom_place datum (EmbedTask.placeAll others ++ rest) placed
    rw [embeddedAll, bind_assoc]
    refine head.trans ?_
    congr 1
    funext h
    rw [embedFrom_placeAll others, bind_assoc]
    congr 1
    funext handles
    rw [pure_bind, List.reverse_cons, List.append_assoc]
    rfl

end

/-- Embedding with a list of tasks is embedding by recursion. -/
theorem embed_eq_embedded (datum : Datum) : embed datum = embedded datum := by
  have placing := embedFrom_place datum [] []
  rw [embed, placing, bind_assoc]
  refine (bind_congr fun h => ?_).trans (bind_pure _)
  rw [embedFrom, pure_bind]
  funext session
  rfl

/-! ### Properties of embedding -/

/-- `P` holds of what placing a datum is made of, and of sequences of routines of which it holds. -/
structure HoldsOfPlacing (P : (α : Type) → Routine α → Prop) : Prop where
  pure : ∀ {α : Type} (value : α), P α (pure value)
  bind : ∀ {α β : Type} {first : Routine α} {next : α → Routine β}, P α first →
    (∀ value, P β (next value)) → P β (first >>= next)
  fail : ∀ {α : Type} {failure : Failure}, failure.isPlain = true → P α (throw failure)
  allocate : ∀ record, P Handle (allocate record)
  allocateList : ∀ items tail, P Handle (allocateList items tail)
  insertText : ∀ text, P Handle (insertText text)
  internAtom : ∀ name, P Record (internAtom name)

namespace HoldsOfPlacing

variable {P : (α : Type) → Routine α → Prop} (law : HoldsOfPlacing P)
include law

mutual

theorem embedded (datum : Datum) : P Handle (embedded datum) := by
  match datum with
  | .list items =>
    rw [Routine.embedded]
    exact law.bind (embeddedAll items) fun _ => law.allocateList _ _
  | .dotted items tail =>
    rw [Routine.embedded]
    apply law.bind (embeddedAll items)
    intro _
    exact law.bind (embedded tail) fun _ => law.allocateList _ _
  | .atom name =>
    rw [Routine.embedded]
    exact law.bind (law.internAtom name) fun _ => law.allocate _
  | .integer _ | .boolean _ | .character _ =>
    rw [Routine.embedded]
    exact law.allocate _
  | .string text =>
    rw [Routine.embedded]
    exact law.bind (law.insertText text) fun _ => law.allocate _
  | .foreign value =>
    have fails : FailsPlainly value.display := value.display_failsWithin Unshown.isPlain_failure
    rw [Routine.embedded]
    cases shown : value.display with
    | ok text => exact law.bind (law.pure text) fun _ => law.fail rfl
    | error failure => exact law.bind (law.fail (fails failure shown)) fun _ => law.fail rfl

theorem embeddedAll (items : List Datum) : P (List Handle) (embeddedAll items) := by
  match items with
  | [] =>
    rw [Routine.embeddedAll]
    exact law.pure []
  | datum :: rest =>
    rw [Routine.embeddedAll]
    apply law.bind (embedded datum)
    intro _
    exact law.bind (embeddedAll rest) fun _ => law.pure _

end

theorem embed (datum : Datum) : P Handle (embed datum) := by
  rw [embed_eq_embedded]
  exact law.embedded datum

end HoldsOfPlacing

/-- Whatever the ending, the session is left with another store at most, and a failure is a plain
one. -/
def ChangesStoreOnly {α : Type} (routine : Routine α) : Prop :=
  ∀ session, (∃ store, routine.after session = { session with store }) ∧
    ∀ failure, routine.failure? session = some failure → failure.isPlain = true

namespace ChangesStoreOnly

variable {α β : Type}

theorem of_ok {routine : Routine α}
    (ends : ∀ session, ∃ value store, routine session = .ok value { session with store }) :
    ChangesStoreOnly routine := by
  intro session
  obtain ⟨value, store, result⟩ := ends session
  unfold after failure?
  rw [result]
  exact ⟨⟨store, rfl⟩, nofun⟩

theorem fail {failure : Failure} (plain : failure.isPlain = true) :
    ChangesStoreOnly (throw failure : Routine α) :=
  fun session => ⟨⟨session.store, rfl⟩, by rintro other ⟨⟩; exact plain⟩

theorem bind {first : Routine α} {next : α → Routine β} (head : ChangesStoreOnly first)
    (tail : ∀ value, ChangesStoreOnly (next value)) : ChangesStoreOnly (first >>= next) := by
  intro session
  obtain ⟨⟨store, left⟩, plain⟩ := head session
  unfold after failure? at *
  cases result : first session with
  | ok value mid =>
    rw [result] at left
    dsimp only at left
    subst left
    rw [bind_ok result]
    exact tail value _
  | error failure mid =>
    rw [result] at left plain
    rw [bind_error result]
    exact ⟨⟨store, left⟩, plain⟩

theorem allocate (record : Record) : ChangesStoreOnly (allocate record) :=
  of_ok fun _ => ⟨_, _, rfl⟩

theorem allocateList (items : List Handle) (tail : Option Handle) :
    ChangesStoreOnly (allocateList items tail) :=
  of_ok fun _ => ⟨_, _, rfl⟩

theorem internAtom (name : String) : ChangesStoreOnly (internAtom name) := by
  apply of_ok
  intro session
  have reading : inspect (fun _ words => .ok (words.classify name)) session =
      .ok (session.vocabulary.classify name) session := inspect_ok rfl
  rw [Routine.internAtom, bind_ok reading]
  cases session.vocabulary.classify name with
  | some record => exact ⟨record, session.store, rfl⟩
  | none => exact ⟨_, _, rfl⟩

theorem holdsOfPlacing : HoldsOfPlacing fun _ => ChangesStoreOnly where
  pure value := of_ok fun session => ⟨value, session.store, rfl⟩
  bind := bind
  fail := fail
  allocate := allocate
  allocateList := allocateList
  insertText _ := of_ok fun _ => ⟨_, _, rfl⟩
  internAtom := internAtom

end ChangesStoreOnly

theorem embedded_changesStoreOnly (datum : Datum) : ChangesStoreOnly (embedded datum) :=
  ChangesStoreOnly.holdsOfPlacing.embedded datum

theorem embed_changesStoreOnly (datum : Datum) : ChangesStoreOnly (embed datum) :=
  ChangesStoreOnly.holdsOfPlacing.embed datum

/-- Where a datum has been placed only the store is another one. -/
theorem left_of_embedded {session left : Session} {datum : Datum} {h : Handle}
    (placed : embedded datum session = .ok h left) :
    left = { session with store := left.store } := by
  obtain ⟨store, same⟩ := (embedded_changesStoreOnly datum session).1
  rw [after, placed] at same
  dsimp only at same
  rw [same]

end ScopedLisp.Routine
