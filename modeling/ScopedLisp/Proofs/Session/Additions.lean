import ScopedLisp.Proofs.Datum.ReadBack
import ScopedLisp.Proofs.Session.Preparation
import ScopedLisp.Proofs.Store.Interning
import ScopedLisp.Proofs.Text.Numeral

/-!
# What placing a datum adds

The leaves of a datum decide what the tables of a session receive: a record for each leaf and for
each pair, the texts as they occur, and the names as they occur first. A leaf that is no datum is
refused. What was added can be read back.
-/

namespace ScopedLisp

/-! ### Placing -/

theorem Vocabulary.isSome_classify (words : Vocabulary) (name : String) :
    (words.classify name).isSome = words.isReserved name := by
  unfold classify isReserved
  cases words.forms.has name with
  | true => rfl
  | false => cases words.operators.has name <;> rfl

/-- The failure that the value brings about where a datum was expected. The value is named, unless
it has no shown text: then showing it fails first. -/
inductive HostValue.RefusedBy (value : HostValue) : Failure → Prop
  | named {shown : String} : value.display = .ok shown → RefusedBy value (.notADatum shown)
  | unshown {reason : Unshown} : value.unshown? = some reason → RefusedBy value reason.failure

/-- Placing a value of the embedding program fails. -/
theorem HostValue.refusedBy (value : HostValue) (session : Session) :
    ∃ failure, Routine.embedded (.foreign value) session = .error failure session ∧
      value.RefusedBy failure := by
  rw [Routine.embedded]
  cases displayed : value.display with
  | ok shown => exact ⟨_, rfl, .named displayed⟩
  | error failure =>
    obtain ⟨reason, unshown, rfl⟩ := display_eq_error displayed
    exact ⟨_, rfl, .unshown unshown⟩

namespace Session

/-- The names among the leaves that are not reserved. -/
def freeNames (session : Session) (leaves : List Datum) : List String :=
  (leaves.filterMap Datum.atomName?).filter (!session.vocabulary.isReserved ·)

/-- The names in the datum that are neither reserved nor interned, each where it occurs first. -/
def newNames (session : Session) (datum : Datum) : List String :=
  ((session.freeNames datum.leaves).filter (!session.store.symbols.has ·)).eraseDups

/-- The second session has as many more records as said, and the texts and names of the leaves. -/
structure Additions (session left : Session) (records : Nat) (leaves : List Datum) : Prop where
  vocabulary : left.vocabulary = session.vocabulary
  heap : left.store.heap.size = session.store.heap.size + records
  texts : left.store.texts.contents.toList =
    session.store.texts.contents.toList ++ leaves.filterMap Datum.stringText?
  symbols : left.store.symbols = session.store.symbols.internAll (session.freeNames leaves)

namespace Additions

variable {session mid left : Session} {records more : Nat} {leaves others : List Datum}

theorem refl (session : Session) : session.Additions session 0 [] :=
  ⟨rfl, rfl, (List.append_nil _).symm, rfl⟩

theorem trans (first : session.Additions mid records leaves)
    (second : mid.Additions left more others) :
    session.Additions left (records + more) (leaves ++ others) := by
  refine ⟨second.vocabulary.trans first.vocabulary, ?_, ?_, ?_⟩
  · rw [second.heap, first.heap, Nat.add_assoc]
  · rw [second.texts, first.texts, List.filterMap_append, List.append_assoc]
  · rw [second.symbols, first.symbols, ← Symbols.internAll_append, freeNames, freeNames, freeNames,
      first.vocabulary, List.filterMap_append, List.filter_append]

end Additions

/-- From the session the routine places data with these leaves, unless one of them is no datum:
then the first such leaf is refused. -/
def Lays (session : Session) {α : Type} (routine : Routine α) (records : Nat)
    (leaves : List Datum) : Prop :=
  match leaves.findSome? Datum.foreignValue? with
  | none => ∃ value left, routine session = .ok value left ∧ session.Additions left records leaves
  | some value => ∃ failure left, routine session = .error failure left ∧ value.RefusedBy failure

namespace Lays

open Routine

variable {session : Session} {α β : Type} {records more : Nat} {leaves others : List Datum}

theorem of_ok {routine : Routine α} {value : α} {left : Session}
    (result : routine session = .ok value left) (additions : session.Additions left records []) :
    session.Lays routine records [] := ⟨value, left, result, additions⟩

theorem bind {first : Routine α} {next : α → Routine β} (head : session.Lays first records leaves)
    (tail : ∀ {value mid}, first session = .ok value mid → mid.Lays (next value) more others) :
    session.Lays (first >>= next) (records + more) (leaves ++ others) := by
  rw [Lays, List.findSome?_append]
  cases refused : leaves.findSome? Datum.foreignValue? with
  | some value =>
    rw [Lays, refused] at head
    obtain ⟨failure, left, result, refusal⟩ := head
    exact ⟨failure, left, bind_error result, refusal⟩
  | none =>
    rw [Lays, refused] at head
    obtain ⟨value, mid, result, before⟩ := head
    have tail := tail result
    rw [Option.none_or, bind_ok result]
    cases refused : others.findSome? Datum.foreignValue? with
    | some value =>
      rw [Lays, refused] at tail
      exact tail
    | none =>
      rw [Lays, refused] at tail
      obtain ⟨other, left, result, after⟩ := tail
      exact ⟨other, left, result, before.trans after⟩

/-- A routine that places no leaves may follow. -/
theorem andThen {first : Routine α} {next : α → Routine β}
    (head : session.Lays first records leaves)
    (tail : ∀ {value mid}, first session = .ok value mid → mid.Lays (next value) more []) :
    session.Lays (first >>= next) (records + more) leaves := by
  have both := head.bind tail
  rw [List.append_nil] at both
  exact both

theorem pure (value : α) : session.Lays (pure value) 0 [] := of_ok rfl (.refl session)

theorem allocate (record : Record) : session.Lays (allocate record) 1 [] :=
  of_ok rfl ⟨rfl, Array.size_push _, (List.append_nil _).symm, rfl⟩

theorem allocateList (handles : List Handle) (tail : Option Handle) :
    session.Lays (allocateList handles tail) handles.length [] := by
  induction handles with
  | nil => exact of_ok rfl (.refl session)
  | cons item rest ih =>
    rw [allocateList_cons]
    exact ih.andThen fun _ => allocate _

theorem insertText (text : String) : session.Lays (insertText text) 0 [.string text] :=
  ⟨_, _, rfl, rfl, rfl, Array.toList_push, rfl⟩

theorem internAtom (name : String) : session.Lays (internAtom name) 0 [.atom name] := by
  have reading : inspect (fun _ words => .ok (words.classify name)) session =
      .ok (session.vocabulary.classify name) session := inspect_ok rfl
  have free : session.freeNames [.atom name] = [name].filter (!session.vocabulary.isReserved ·) :=
    rfl
  have reserved := session.vocabulary.isSome_classify name
  cases classified : session.vocabulary.classify name with
  | some record =>
    rw [classified, Option.isSome_some] at reserved
    rw [List.filter_cons_of_neg (by rw [← reserved]; decide)] at free
    refine ⟨record, session, ?_, rfl, rfl, (List.append_nil _).symm, ?_⟩
    · rw [Routine.internAtom, bind_ok reading, classified]
      rfl
    · rw [free]
      rfl
  | none =>
    rw [classified, Option.isSome_none] at reserved
    rw [List.filter_cons_of_pos (by rw [← reserved]; rfl)] at free
    refine ⟨.symbol (session.store.symbols.intern name).2, { session with store :=
      { session.store with symbols := (session.store.symbols.intern name).1 } }, ?_, rfl, rfl,
      (List.append_nil _).symm, ?_⟩
    · rw [Routine.internAtom, bind_ok reading, classified]
      rfl
    · rw [free]
      rfl

mutual

/-- Each leaf takes a record, and so does each item of a list. -/
theorem embedded (session : Session) (datum : Datum) :
    session.Lays (embedded datum) (datum.leaves.length + datum.pairs) datum.leaves := by
  match datum with
  | .list items =>
    rw [Routine.embedded, Datum.leaves, Datum.pairs, Nat.add_comm items.length, ← Nat.add_assoc]
    apply (embeddedAll session items).andThen
    intro handles mid placed
    rw [← length_of_embeddedAll placed]
    exact allocateList handles none
  | .dotted items tail =>
    have records : (Datum.dotted items tail).leaves.length + (Datum.dotted items tail).pairs =
        (Datum.leavesOfAll items).length + Datum.pairsAll items +
          (tail.leaves.length + tail.pairs + items.length) := by
      rw [Datum.leaves, Datum.pairs, List.length_append]
      omega
    rw [Routine.embedded, records, Datum.leaves]
    apply (embeddedAll session items).bind
    intro handles mid placed
    rw [← length_of_embeddedAll placed]
    exact (embedded mid tail).andThen fun _ => allocateList handles _
  | .atom name =>
    rw [Routine.embedded]
    exact (internAtom name).andThen fun _ => allocate _
  | .string text =>
    rw [Routine.embedded]
    exact (insertText text).andThen fun _ => allocate _
  | .integer _ | .boolean _ | .character _ =>
    rw [Routine.embedded]
    exact ⟨_, _, rfl, rfl, Array.size_push _, (List.append_nil _).symm, rfl⟩
  | .foreign value =>
    obtain ⟨failure, result, refusal⟩ := value.refusedBy session
    exact ⟨failure, session, result, refusal⟩

theorem embeddedAll (session : Session) (items : List Datum) :
    session.Lays (embeddedAll items) ((Datum.leavesOfAll items).length + Datum.pairsAll items)
      (Datum.leavesOfAll items) := by
  match items with
  | [] => exact .pure []
  | datum :: rest =>
    have records : (Datum.leavesOfAll (datum :: rest)).length + Datum.pairsAll (datum :: rest) =
        datum.leaves.length + datum.pairs +
          ((Datum.leavesOfAll rest).length + Datum.pairsAll rest) := by
      rw [Datum.leavesOfAll, Datum.pairsAll, List.length_append]
      omega
    rw [Routine.embeddedAll, records, Datum.leavesOfAll]
    apply (embedded session datum).bind
    intro h mid _
    exact (embeddedAll mid rest).andThen fun _ => .pure _

end

end Lays

end Session

/-- Embedding with a list of tasks is embedding by recursion, in what is returned or raised and in
the session that is left. A part that is no datum is refused by the text that it is shown by; where
it has no such text, what is raised is that an integer in it has too many digits, or what showing it
complained of. There is no other failure. The heap grows by a record for each leaf and one for each
item of a list; texts are entered in the order in which they occur and new names are interned in the
order in which they occur first. From the handle the datum is read back with its tails merged. -/
theorem Routine.embed_by_recursion (session : Session) (datum : Datum) :
    embed datum session = embedded datum session ∧
      (∀ value, datum.foreign? = some value →
        (value.unshown? = none → ∃ shown left, value.display = .ok shown ∧
          embed datum session = .error (.notADatum shown) left) ∧
        (value.unshown? = some .tooManyDigits → ∃ left,
          embed datum session = .error .tooManyDigits left) ∧
        ∀ complaint, value.unshown? = some (.complaint complaint) → ∃ left,
          embed datum session = .error (.notShown complaint) left) ∧
      (datum.foreign? = none → ∃ h left, embed datum session = .ok h left ∧
        left = { session with store := left.store } ∧ session.store.Extends left.store ∧
        left.store.heap.size = session.store.heap.size + (datum.leaves.length + datum.pairs) ∧
        left.store.texts.contents.toList =
          session.store.texts.contents.toList ++ datum.leaves.filterMap Datum.stringText? ∧
        left.store.symbols.names = session.store.symbols.names ++ session.newNames datum ∧
        (session.store.BeginsWithNil → left.store.readBack h = some datum.merged)) := by
  have recursion := congrFun (embed_eq_embedded datum) session
  have laid := Session.Lays.embedded session datum
  refine ⟨recursion, fun value refused => ?_, fun native => ?_⟩
  · -- the first part that is no datum ends the placing, in one of two ways
    rw [Session.Lays, ← Datum.foreign?, refused] at laid
    obtain ⟨failure, left, result, refusal⟩ := laid
    rw [← recursion] at result
    cases refusal with
    | named shown =>
      refine ⟨fun _ => ⟨_, left, shown, result⟩, ?_, ?_⟩
      · intro unshown
        cases shown.symm.trans (HostValue.display_of_unshown unshown)
      · intro complaint unshown
        cases shown.symm.trans (HostValue.display_of_unshown unshown)
    | unshown first =>
      refine ⟨?_, ?_, ?_⟩
      · intro shown
        cases first.symm.trans shown
      · intro unshown
        cases first.symm.trans unshown
        exact ⟨left, result⟩
      · intro complaint unshown
        cases first.symm.trans unshown
        exact ⟨left, result⟩
  · rw [Session.Lays, ← Datum.foreign?, native] at laid
    obtain ⟨h, left, result, additions⟩ := laid
    rw [← recursion] at result
    have only := (embed_changesStoreOnly datum session).1
    have larger := EnlargesStore.embed datum session
    unfold after at only larger
    rw [result] at only larger
    obtain ⟨store, same⟩ := only
    refine ⟨h, left, result, ?_, larger.extends_store, additions.heap, additions.texts, ?_, ?_⟩
    · dsimp only at same
      rw [same]
    · rw [additions.symbols, Symbols.names_internAll]
      rfl
    · intro begins
      -- the same run once more, now with what its handle shows
      obtain ⟨h', left', result', -, -, shown⟩ :=
        embedded_places begins (Datum.foreign?_eq_none_iff.mp native)
      rw [← recursion, result] at result'
      cases result'
      obtain ⟨_, inside, -⟩ := Heap.exists_index_of_get begins
      have enlarged := additions.heap
      exact Store.readBack_of_shownAt shown (by omega)

/-- A reserved name, an empty list, a name that occurs twice and a tail that is a list; a list whose
second item is a list that is no datum; and a tail that cannot be shown. -/
theorem Routine.embed_by_recursion_of_tail :
    (∃ h left,
      embed (.dotted [.atom "if", .list [], .atom "x", .string "a"] (.list [.atom "y", .atom "x"]))
        (Session.start .standard 0) = .ok h left ∧
      left.store.heap.size = 12 ∧ left.store.texts.contents.toList = ["a"] ∧
      left.store.symbols.names = ["x", "y"] ∧
      left.store.readBack h = some (.list
        [.atom "if", .list [], .atom "x", .string "a", .atom "y", .atom "x"])) ∧
      (∃ left, embed (.list [.atom "x", .foreign (.list [.none, .other (.ok "1.5")])])
        (Session.start .standard 0) = .error (.notADatum "[None, 1.5]") left) ∧
      ∃ left, embed (.dotted [.atom "x"] (.foreign (.other (.error (.complaint "lost")))))
        (Session.start .standard 0) = .error (.notShown "lost") left := by
  refine ⟨?_, ?_, ?_⟩
  · obtain ⟨-, -, placed⟩ := embed_by_recursion (Session.start .standard 0)
      (.dotted [.atom "if", .list [], .atom "x", .string "a"] (.list [.atom "y", .atom "x"]))
    obtain ⟨h, left, result, -, -, records, texts, names, read⟩ := placed rfl
    exact ⟨h, left, result, records, texts, names, read rfl⟩
  · obtain ⟨-, refused, -⟩ := embed_by_recursion (Session.start .standard 0)
      (.list [.atom "x", .foreign (.list [.none, .other (.ok "1.5")])])
    obtain ⟨shown, left, displayed, result⟩ := (refused _ rfl).1 rfl
    cases displayed
    exact ⟨left, result⟩
  · obtain ⟨-, refused, -⟩ := embed_by_recursion (Session.start .standard 0)
      (.dotted [.atom "x"] (.foreign (.other (.error (.complaint "lost")))))
    exact (refused _ rfl).2.2 _ rfl

/-- An integer of one digit too many is no datum either, but it is refused without being named. -/
theorem Routine.embed_names_no_wide_integer :
    let leaf := Datum.foreign (.integer (Nat.pow 10 Text.digitLimit))
    (∃ left, embed leaf (Session.start .standard 0) = .error .tooManyDigits left) ∧
      ¬∃ shown left, embed leaf (Session.start .standard 0) = .error (.notADatum shown) left := by
  intro leaf
  have wide : Text.Numeral.print? (Nat.pow 10 Text.digitLimit) = none :=
    Text.Numeral.print?_of_long (Text.Numeral.lt_length_repr_pow (by decide))
  have unshown : HostValue.unshown? (.integer (Nat.pow 10 Text.digitLimit)) =
      some .tooManyDigits := by
    rw [HostValue.unshown?, wide]
    rfl
  have raised : embed leaf (Session.start .standard 0) =
      .error .tooManyDigits (Session.start .standard 0) := by
    rw [embed_eq_embedded, embedded, HostValue.display_of_unshown unshown]
    rfl
  refine ⟨⟨_, raised⟩, ?_⟩
  rintro ⟨shown, left, named⟩
  cases raised.symm.trans named

end ScopedLisp
