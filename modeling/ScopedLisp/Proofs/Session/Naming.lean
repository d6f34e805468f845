import ScopedLisp.Proofs.Session.Embedding
import ScopedLisp.Proofs.Session.Mirror
import ScopedLisp.Proofs.Session.Renaming

/-!
# Other names for the same symbols

The names of the symbols may be changed in a session: the tables stay as large as they are, and
every handle stands for the same entry. A routine that never looks at a name takes exactly the same
course then; it is called blind. The other ones only put names into texts, and texts end up in
messages. So with other names an evaluation takes the same course and counts the same steps, and all
that can differ is a text in its failure.
-/

namespace ScopedLisp

open Routine

/-- The store with every name of a symbol changed. -/
def Store.renamed (rename : String → String) (store : Store) : Store :=
  { store with symbols := { store.symbols with names := store.symbols.names.map rename } }

/-- The session with every name of a symbol changed. -/
def Session.renamed (rename : String → String) (session : Session) : Session :=
  { session with store := session.store.renamed rename }

/-- The ending with every name changed in the session that is left. -/
def Ending.renamed {α : Type} (rename : String → String) : Ending α → Ending α :=
  Ending.onLeft (·.renamed rename)

/-- The failures are of the same kind, and only texts about objects and symbols differ in them. -/
abbrev Failure.SameButTexts : Failure → Failure → Prop := Failure.Renamed id fun _ _ => True

theorem Record.rename_id (record : Record) : record.rename id = record := by
  cases record <;> rfl

/-! ### Texts -/

/-- The layouts are the same unless both are mere texts. -/
inductive Layout.SameButText : Layout → Layout → Prop where
  | same (layout : Layout) : SameButText layout layout
  | plain (text text' : String) : SameButText (.plain text) (.plain text')

/-- The pieces are the same unless both are mere texts. -/
inductive Piece.SameButText : Piece → Piece → Prop where
  | same (piece : Piece) : SameButText piece piece
  | plain (text text' : String) : SameButText (.plain text) (.plain text')

/-- Layouts that differ in texts only are laid out in as many pieces of the same kinds. -/
theorem Layout.SameButText.pieces {layout layout' : Layout} (alike : layout.SameButText layout')
    (room : Nat) : List.Forall₂ Piece.SameButText (layout.pieces room) (layout'.pieces room) := by
  cases alike with
  | same => exact List.forall₂_same.mpr fun piece _ => .same piece
  | plain text text' => exact .cons (.plain text text') .nil

namespace Store

variable (rename : String → String) (store : Store)

/-- A symbol has a name in both stores or in neither. -/
theorem symbolName_renamed (h : Handle) :
    (store.renamed rename).symbols.name h = (store.symbols.name h).map rename := by
  have length : (store.symbols.names.map rename).length = store.symbols.names.length :=
    List.length_map rename
  unfold renamed Symbols.name
  dsimp only
  cases found : h.position? .symbols store.symbols.owner store.symbols.names.length with
  | some i =>
    have recognised : h.position? .symbols store.symbols.owner
        (store.symbols.names.map rename).length = some (i.cast length.symm) := by
      rw [Handle.position?_eq_some_iff] at found ⊢
      exact found
    rw [recognised]
    simp [Except.map]
  | none =>
    have unknown : h.position? .symbols store.symbols.owner
        (store.symbols.names.map rename).length = none := by
      rw [length]
      exact found
    rw [unknown]
    rfl

variable {F : Failure → Failure → Prop} (same : ∀ failure, F failure failure)
include same

theorem symbolName_alike (h : Handle) :
    Agrees F (fun _ _ => True) (store.symbols.name h)
      ((store.renamed rename).symbols.name h) := by
  rw [symbolName_renamed]
  cases store.symbols.name h with
  | ok name => exact .ok trivial
  | error failure => exact .error (same failure)

/-- An object is laid out alike but for the names in it. -/
theorem layout_alike (h : Handle) :
    Agrees F Layout.SameButText (store.layout h) ((store.renamed rename).layout h) := by
  have equal (result : Except Failure Layout) : Agrees F Layout.SameButText result result := by
    cases result with
    | ok layout => exact .ok (.same layout)
    | error failure => exact .error (same failure)
  unfold layout
  cases found : store.heap.get h with
  | error failure =>
    have found' : (store.renamed rename).heap.get h = .error failure := found
    rw [found']
    exact .error (same failure)
  | ok record =>
    have found' : (store.renamed rename).heap.get h = .ok record := found
    rw [ok_bind found']
    cases record with
    | symbol name =>
      exact (symbolName_alike rename store same name).bind fun _ _ _ => .ok (.plain _ _)
    | _ => exact equal _

/-- Rendering ends alike, whatever has been written so far. -/
theorem writeFrom_alike {pending pending' : List Piece}
    (pieces : List.Forall₂ Piece.SameButText pending pending') (written written' : String) :
    Agrees F (fun _ _ => True) (store.writeFrom pending written)
      ((store.renamed rename).writeFrom pending' written') := by
  fun_induction store.writeFrom pending written generalizing pending' written' with
  | case1 written =>
    cases pieces
    rw [Store.writeFrom]
    exact .ok trivial
  | case2 written text rest ih =>
    cases pieces with
    | cons first others =>
      cases first with
      | same | plain =>
        rw [Store.writeFrom]
        exact ih others _
  | case3 written h rest =>
    cases pieces with
    | cons first others =>
      cases first
      rw [Store.writeFrom]
      exact .error (same _)
  | case4 written room h rest failure found =>
    cases pieces with
    | cons first others =>
      cases first
      have shown := layout_alike rename store same h
      rw [found] at shown
      rw [Store.writeFrom_eq]
      generalize (store.renamed rename).layout h = result at shown
      cases shown with
      | error related => exact .error related
      | excused fault result => exact .excused fault _
  | case5 written room h rest layout found ih =>
    cases pieces with
    | cons first others =>
      cases first
      have shown := layout_alike rename store same h
      rw [found] at shown
      rw [Store.writeFrom_eq]
      generalize (store.renamed rename).layout h = result at shown
      cases shown with
      | ok alike => exact ih (List.rel_append (alike.pieces room) others) _

theorem describe_alike (h : Handle) :
    Agrees F (fun _ _ => True) (store.describe h) ((store.renamed rename).describe h) := by
  unfold describe
  have fetched : (store.renamed rename).heap.get h = store.heap.get h := rfl
  rw [fetched]
  cases store.heap.get h with
  | error failure => exact .error (same failure)
  | ok record =>
    have shown : Agrees F (fun _ _ => True) (store.render h) ((store.renamed rename).render h) :=
      writeFrom_alike rename store same (.cons (.same _) .nil) "" ""
    exact shown.bind fun _ _ _ => .ok trivial

omit same

/-- A parameter that repeats an earlier one does so in both stores, since it is compared by its
handle. -/
theorem requireNew_alike (form : String) (seen : List Handle) (symbol : Handle) :
    Agrees Failure.SameButTexts Eq (store.requireNew form seen symbol)
      ((store.renamed rename).requireNew form seen symbol) := by
  unfold requireNew
  split
  · exact (symbolName_alike rename store .same symbol).throw
      fun _ _ _ => .duplicateParameter trivial
  · exact .ok rfl

/-- Parameters are found good in both stores or in neither. -/
theorem checkParametersFrom_alike (form : String) (steps : Nat) (seen : List Handle)
    (params : Handle) :
    Agrees Failure.SameButTexts Eq (store.checkParametersFrom form steps seen params)
      ((store.renamed rename).checkParametersFrom form steps seen params) := by
  induction steps generalizing seen params with
  | zero => exact .error (.same _)
  | succ steps ih =>
    have refused (expected : String) (h : Handle) :
        Agrees Failure.SameButTexts Eq
          (do throw (.typeMismatch expected (← store.describe h)) : Except Failure Unit)
          (do throw (.typeMismatch expected (← (store.renamed rename).describe h))) :=
      (describe_alike rename store .same h).throw fun _ _ _ => .typeMismatch trivial
    have fetched (h : Handle) : (store.renamed rename).heap.get h = store.heap.get h := rfl
    unfold checkParametersFrom
    rw [fetched]
    cases store.heap.get params with
    | error failure => exact .error (.same failure)
    | ok record =>
      cases record with
      | nil => exact .ok rfl
      | symbol symbol => exact requireNew_alike rename store form seen symbol
      | pair car cdr =>
        simp only [ok_bind rfl, fetched]
        cases store.heap.get car with
        | error failure => exact .error (.same failure)
        | ok parameter =>
          cases parameter with
          | symbol symbol =>
            exact (requireNew_alike rename store form seen symbol).bind fun _ _ _ => ih _ cdr
          | _ => exact refused "symbol" car
      | _ => exact refused "parameter list" params

end Store

theorem Scopes.unbound_alike {α : Type} {rel : α → α → Prop} (rename : String → String)
    (store : Store) (symbol : Handle) :
    Agrees Failure.SameButTexts rel (Scopes.unbound store.symbols.name symbol)
      (Scopes.unbound (store.renamed rename).symbols.name symbol) :=
  (Store.symbolName_alike rename store .same symbol).throw fun _ _ _ => .unboundVariable trivial

/-! ### Routines -/

/-- The routine takes the same course in a session with changed names. -/
def Blind (rename : String → String) {α : Type} (routine : Routine α) : Prop :=
  ∀ session : Session, routine (session.renamed rename) = Ending.renamed rename (routine session)

/-- The first routine takes in a session the course that the second one takes in the session with
changed names, and they yield related values. -/
abbrev Resembles (rename : String → String) {α β : Type} (rel : α → β → Prop) (routine : Routine α)
    (routine' : Routine β) : Prop :=
  Tracks (fun session session' => session' = session.renamed rename) Failure.SameButTexts rel
    routine routine'

/-- Names are no part of the scopes, the steps or the journal. -/
theorem Session.unseen_renamed (rename : String → String) : Unseen (·.renamed rename) id where
  scopes _ := rfl
  steps _ := rfl
  stepLimit _ := rfl
  withScopes _ _ := rfl
  withSteps _ _ := rfl
  report _ _ := rfl
  fixed _ _ := rfl
  malformed defect := ⟨defect, rfl⟩

namespace Blind

variable {rename : String → String} {α β : Type}

/-- What takes no notice of a change of the session takes none of a change of its names. -/
theorem of_mirrors {routine : Routine α}
    (mirrors : Mirrors (·.renamed rename) id α routine routine) : Blind rename routine := by
  intro session
  rw [mirrors session]
  cases routine session <;> rfl

theorem resembles {routine : Routine α} {rel : α → α → Prop} (blind : Blind rename routine)
    (related : ∀ value, rel value value) : Resembles rename rel routine routine := by
  rintro session _ rfl
  rw [blind session]
  cases routine session with
  | ok value left => exact .ok (related value) rfl
  | error failure left => exact .error (.same failure) rfl

/-- What is read off the session without a look at the names. -/
theorem inspect (read : Heap → Vocabulary → Except Failure α) :
    Blind rename (inspect fun store words => read store.heap words) := by
  have reads (session : Session) :
      Routine.inspect (fun store words => read store.heap words) session =
        (ofExcept (read session.store.heap session.vocabulary) : Routine α) session := rfl
  intro session
  rw [reads, reads]
  change (ofExcept (read session.store.heap session.vocabulary) : Routine α) _ = _
  cases read session.store.heap session.vocabulary <;> rfl

theorem allocate (record : Record) : Blind rename (allocate record) := fun _ => rfl

theorem currentScope : Blind rename currentScope :=
  of_mirrors (.currentScope (Session.unseen_renamed rename))

section Calls

variable {total room : Nat}

theorem reach (moment : Moment) : Mirrors (·.renamed rename) id Unit
    ((CallStack.withRoom total : EvalStack).reach room moment)
    ((CallStack.withRoom total : EvalStack).reach room moment) :=
  fun _ => rfl

theorem enterScope (parent : Handle) :
    Blind rename (((CallStack.withRoom total).callsWithin room).enterScope parent) :=
  of_mirrors (.enterScope (Session.unseen_renamed rename) reach parent)

theorem exitScope :
    Blind rename ((CallStack.withRoom total).callsWithin room).exitScope :=
  of_mirrors (.exitScope (Session.unseen_renamed rename) reach)

theorem tick : Blind rename ((CallStack.withRoom total).callsWithin room).tick :=
  of_mirrors (.tick (Session.unseen_renamed rename) reach)

end Calls

end Blind

namespace Resembles

variable {rename : String → String} {α β : Type} {rel : α → β → Prop}

theorem inspect {read : Store → Vocabulary → Except Failure α}
    {read' : Store → Vocabulary → Except Failure β}
    (agrees : ∀ store words,
      Agrees Failure.SameButTexts rel (read store words) (read' (store.renamed rename) words)) :
    Resembles rename rel (inspect read) (Routine.inspect read') := by
  refine Tracks.reading ?_ (fun _ => rfl) fun _ => rfl
  rintro session _ rfl
  exact agrees session.store session.vocabulary

/-- Evaluation meets reserved words by their names, which are not changed. -/
theorem words (read : Vocabulary → Except Failure α) :
    Resembles rename (fun value value' => value = value' ∧ ∃ words, read words = .ok value)
      (Routine.inspect fun _ words => read words) (Routine.inspect fun _ words => read words) := by
  apply inspect
  intro _ words
  cases found : read words with
  | ok value => exact .ok ⟨rfl, words, found⟩
  | error failure => exact .error (.same failure)

theorem lookupSymbol (symbol : Handle) :
    Resembles rename (HandleRenamed id) (lookupSymbol symbol) (Routine.lookupSymbol symbol) := by
  refine Tracks.reading ?_ (fun _ => rfl) fun _ => rfl
  rintro session _ rfl
  change Agrees _ _ _ (session.scopes.lookup _ symbol)
  rw [Scopes.lookup_eq, Scopes.lookup_eq]
  cases session.scopes.find? symbol with
  | error failure => exact .error (.same failure)
  | ok found =>
    cases found with
    | some binding => exact .ok rfl
    | none => exact Scopes.unbound_alike rename session.store symbol

/-- A binding is written alike if its place is found alike. -/
theorem writeBinding {find : (session : Session) → Except Failure (Fin session.scopes.frames.size)}
    (agrees : ∀ session,
      Agrees Failure.SameButTexts Eq (find session) (find (session.renamed rename)))
    (symbol value : Handle) :
    Resembles rename Eq (writeBinding find symbol value)
      (Routine.writeBinding find symbol value) := by
  rintro session _ rfl
  have found := agrees session
  unfold Routine.writeBinding
  generalize find session = result, find (session.renamed rename) = result' at found
  cases found with
  | ok same =>
    subst same
    exact .ok rfl rfl
  | error related => exact .error related rfl
  | excused fault result => exact .excused fault session _

theorem bindSymbol (symbol value : Handle) :
    Resembles rename Eq (bindSymbol symbol value) (Routine.bindSymbol symbol value) := by
  apply writeBinding
  intro session
  change Agrees _ _ _ session.scopes.currentPlace
  cases session.scopes.currentPlace with
  | ok place => exact .ok rfl
  | error failure => exact .error (.same failure)

theorem assignSymbol (symbol value : Handle) :
    Resembles rename Eq (assignSymbol symbol value) (Routine.assignSymbol symbol value) := by
  apply writeBinding
  intro session
  change Agrees _ _ _ (session.scopes.bindingPlace _ symbol)
  rw [Scopes.bindingPlace_eq, Scopes.bindingPlace_eq]
  cases session.scopes.find? symbol with
  | error failure => exact .error (.same failure)
  | ok found =>
    cases found with
    | none => exact Scopes.unbound_alike rename session.store symbol
    | some binding =>
      change Agrees _ _ (session.scopes.position binding.1) (session.scopes.position binding.1)
      cases session.scopes.position binding.1 with
      | ok place => exact .ok rfl
      | error failure => exact .error (.same failure)

/-- Evaluation runs alike under other names, and all handles stay as they are. -/
theorem simulation (rename : String → String) :
    Simulation id (fun _ _ => True) (Resembles rename) where
  pure := Tracks.pure
  bind := Tracks.bind
  fail := Tracks.fail
  excuse fault := Tracks.excuse fault
  phrase := fun _ _ => trivial
  fetch h := (Blind.inspect fun heap _ => heap.get h).resembles fun record => record.rename_id.symm
  nil := (Blind.inspect fun heap _ => .ok heap.nil).resembles fun _ => rfl
  heapSize := (Blind.inspect fun heap _ => .ok heap.size).resembles Nat.le_refl
  elements h := (Blind.inspect fun heap _ => heap.elements h).resembles fun items =>
    items.map_id.symm
  parameterShape params :=
    (Blind.inspect fun heap _ => heap.parameterShape params).resembles fun _ => rfl
  checkParameters form params := inspect fun store _ =>
    store.checkParametersFrom_alike rename form _ [] params
  symbolName h := inspect fun store _ => store.symbolName_alike rename .same h
  describe h := inspect fun store _ => store.describe_alike rename .same h
  words := words
  allocate record := by
    rw [record.rename_id]
    exact (Blind.allocate record).resembles fun _ => rfl
  currentScope := Blind.currentScope.resembles fun _ => rfl
  lookupSymbol := lookupSymbol
  bindSymbol := bindSymbol
  assignSymbol := assignSymbol

/-- Bodies that are alike may be run within the same scope. -/
theorem within {total room : Nat} (parent : Handle) {body : Routine α} {body' : Routine β}
    (inner : Resembles rename rel body body') :
    Resembles rename rel (((CallStack.withRoom total).callsWithin room).within parent body)
      (((CallStack.withRoom total).callsWithin room).within parent body') := by
  have applied : Blind rename (do report (.procedureApplied (← get).scopes.depth)) := fun _ => rfl
  have applies : Resembles rename Eq _ _ := applied.resembles fun _ => rfl
  have enters (total room : Nat) : Resembles rename Eq
      (((CallStack.withRoom total).callsWithin room).enterScope parent)
      (((CallStack.withRoom total).callsWithin room).enterScope parent) :=
    (Blind.enterScope parent).resembles fun _ => rfl
  apply (enters total room).bind
  intro _ _ _
  exact applies.bind fun _ _ _ =>
    inner.ensuring (Blind.exitScope.resembles fun _ => rfl) Renaming.Follows.exitScope_fault

/-- Evaluation of an expression takes the same course with other names. -/
theorem evaluate (total room : Nat) (expr : Handle) :
    Resembles rename (HandleRenamed id) (evaluate (.withRoom total) room expr)
      (ScopedLisp.evaluate (.withRoom total) room expr) := by
  refine (simulation rename).evaluate (fun room evaluates => ?_) room expr
  refine ⟨evaluates, fun moment => ?_, Blind.tick.resembles fun _ => rfl, within⟩
  exact (Blind.of_mirrors (Blind.reach moment)).resembles fun _ => rfl

/-- Both routines run out of the host's stack or neither does. -/
theorem guarded {body : Routine α} {body' : Routine β} (inner : Resembles rename rel body body') :
    Resembles rename rel (guarded body) (Routine.guarded body') := by
  rintro session _ rfl
  have ends := inner session _ rfl
  unfold Routine.guarded
  generalize body session = ending, body' (session.renamed rename) = ending' at ends
  cases ends with
  | ok related same => exact .ok related same
  | @excused failure fault left ending' =>
    cases failure with
    | stackExhausted => cases fault
    | _ => exact .excused fault left _
  | @error failure _ left left' related same =>
    subst same
    cases related with
    | same =>
      cases failure with
      | stackExhausted =>
        -- names have no part in how far the scopes are unwound
        have unwinds : (left.renamed rename).scopes.unwind (session.renamed rename).scopes.depth =
            left.scopes.unwind session.scopes.depth := rfl
        dsimp only
        rw [unwinds]
        cases left.scopes.unwind session.scopes.depth with
        | ok scopes => exact .error (.same _) rfl
        | error failure => exact .error (.same _) rfl
      | _ => exact .error (.same _) rfl
    | improperList tail => exact .error (.improperList tail) rfl
    | unboundVariable alike => exact .error (.unboundVariable alike) rfl
    | notCallable alike => exact .error (.notCallable alike) rfl
    | typeMismatch alike => exact .error (.typeMismatch alike) rfl
    | duplicateParameter alike => exact .error (.duplicateParameter alike) rfl

end Resembles

/-! ### Placing data -/

mutual

/-- The datum with every atom changed. -/
def Datum.renamed (rename : String → String) : Datum → Datum
  | .atom name => .atom (rename name)
  | .list items => .list (renamedAll rename items)
  | .dotted items tail => .dotted (renamedAll rename items) (tail.renamed rename)
  | .integer value => .integer value
  | .boolean value => .boolean value
  | .string text => .string text
  | .character text => .character text
  | .foreign value => .foreign value

def Datum.renamedAll (rename : String → String) : List Datum → List Datum
  | [] => []
  | datum :: rest => datum.renamed rename :: renamedAll rename rest

end

/-- A change of names that keeps different names different and leaves the reserved words alone. -/
structure NameChange (words : Vocabulary) where
  rename : String → String
  injective : Function.Injective rename
  reserved : ∀ name, words.isReserved name = true → rename name = name

namespace NameChange

variable {words : Vocabulary} (change : NameChange words)

/-- A name that is not reserved does not become a reserved word. -/
theorem isReserved_rename (name : String) :
    words.isReserved (change.rename name) = words.isReserved name := by
  cases before : words.isReserved name with
  | true => rw [change.reserved name before, before]
  | false =>
    cases after : words.isReserved (change.rename name) with
    | false => rfl
    | true =>
      have fixed := change.injective (change.reserved _ after)
      rw [fixed, before] at after
      cases after

/-- A name is reserved just if its new name is. -/
theorem classify_rename (name : String) :
    words.classify (change.rename name) = words.classify name := by
  have same := change.isReserved_rename name
  cases reserved : words.isReserved name with
  | true => rw [change.reserved name reserved]
  | false =>
    rw [reserved] at same
    simp only [Vocabulary.isReserved, Bool.or_eq_false_iff] at reserved same
    simp [Vocabulary.classify, reserved, same]

/-- Interning the new name in the renamed table gives the handle of the old one. -/
theorem intern_rename (store : Store) (name : String) :
    (store.renamed change.rename).symbols.intern (change.rename name) =
      ((Store.renamed change.rename
          { store with symbols := (store.symbols.intern name).1 }).symbols,
        (store.symbols.intern name).2) := by
  have index : (store.symbols.names.map change.rename).idxOf? (change.rename name) =
      store.symbols.names.idxOf? name := by
    simp only [List.idxOf?, List.findIdx?_map]
    congr 1
    funext other
    simp [change.injective.eq_iff]
  simp only [Symbols.intern, Store.renamed, index]
  cases store.symbols.names.idxOf? name with
  | some i => rfl
  | none => simp [Symbols.handleAt, Symbols.size]

theorem internSymbol_rename (name : String) (session : Session) :
    internSymbol (change.rename name) (session.renamed change.rename) =
      Ending.renamed change.rename (internSymbol name session) := by
  have interned := change.intern_rename session.store name
  have result (name : String) (session : Session) : internSymbol name session =
      .ok (session.store.symbols.intern name).2
        { session with
          store := { session.store with symbols := (session.store.symbols.intern name).1 } } := rfl
  rw [result, result]
  simp only [Session.renamed, interned]
  rfl

/-- Where the words are reserved, the second routine does in a session with changed names what the
first one does, and neither changes the reserved words. -/
def Commutes {α : Type} (routine routine' : Routine α) : Prop :=
  ∀ session : Session, session.vocabulary = words →
    routine' (session.renamed change.rename) = Ending.renamed change.rename (routine session) ∧
      (routine.after session).vocabulary = words

namespace Commutes

variable {change} {α β : Type}

/-- Placing in sequence commutes with the change of names. -/
theorem bind {first first' : Routine α} {next next' : α → Routine β}
    (head : change.Commutes first first')
    (tail : ∀ value, change.Commutes (next value) (next' value)) :
    change.Commutes (first >>= next) (first' >>= next') := by
  intro session reserved
  obtain ⟨same, kept⟩ := head session reserved
  unfold after at *
  cases result : first session with
  | ok value mid =>
    rw [result] at same kept
    rw [bind_ok result, bind_ok same]
    exact tail value mid kept
  | error failure left =>
    rw [result] at same kept
    rw [bind_error result, bind_error same]
    exact ⟨rfl, kept⟩

/-- What pays no heed to names commutes with changing them. -/
theorem of_blind {routine : Routine α} (blind : Blind change.rename routine)
    (only : ChangesStoreOnly routine) : change.Commutes routine routine := by
  intro session reserved
  obtain ⟨⟨store, left⟩, -⟩ := only session
  exact ⟨blind session, by rw [left]; exact reserved⟩

theorem allocate (record : Record) : change.Commutes (allocate record) (Routine.allocate record) :=
  of_blind (fun _ => rfl) (.allocate record)

theorem allocateList (items : List Handle) (tail : Option Handle) :
    change.Commutes (allocateList items tail) (Routine.allocateList items tail) :=
  of_blind (fun _ => rfl) (.allocateList items tail)

/-- An atom is interned or reserved under its new name as it was under the old one. -/
theorem internAtom (name : String) :
    change.Commutes (internAtom name) (Routine.internAtom (change.rename name)) := by
  intro session reserved
  have reading (name : String) (session : Session) :
      inspect (fun _ words => .ok (words.classify name)) session =
        .ok (session.vocabulary.classify name) session := inspect_ok rfl
  obtain ⟨⟨store, left⟩, -⟩ := ChangesStoreOnly.internAtom name session
  refine ⟨?_, by rw [left]; exact reserved⟩
  have same : (session.renamed change.rename).vocabulary.classify (change.rename name) =
      session.vocabulary.classify name := by
    change session.vocabulary.classify _ = _
    rw [reserved, change.classify_rename]
  rw [Routine.internAtom, Routine.internAtom, bind_ok (reading _ _), bind_ok (reading _ _), same]
  cases session.vocabulary.classify name with
  | some record => rfl
  | none =>
    have interned := change.internSymbol_rename name session
    exact bind_ok interned

mutual

/-- A datum and the one with changed atoms are placed alike. -/
theorem embedded (datum : Datum) :
    change.Commutes (embedded datum) (Routine.embedded (datum.renamed change.rename)) := by
  match datum with
  | .list items =>
    rw [Datum.renamed, Routine.embedded, Routine.embedded]
    exact (embeddedAll items).bind fun _ => allocateList _ _
  | .dotted items tail =>
    rw [Datum.renamed, Routine.embedded, Routine.embedded]
    exact (embeddedAll items).bind fun _ => (embedded tail).bind fun _ => allocateList _ _
  | .atom name =>
    rw [Datum.renamed, Routine.embedded, Routine.embedded]
    exact (internAtom name).bind fun _ => allocate _
  | .string text =>
    rw [Datum.renamed, Routine.embedded]
    have entering : change.Commutes (insertText text) (insertText text) :=
      of_blind (fun _ => rfl) (.of_ok fun _ => ⟨_, _, rfl⟩)
    exact entering.bind fun _ => allocate _
  | .integer _ | .boolean _ | .character _ =>
    rw [Datum.renamed, Routine.embedded]
    exact allocate _
  | .foreign value =>
    rw [Datum.renamed]
    refine of_blind ?_ (embedded_changesStoreOnly _)
    intro session
    rw [Routine.embedded]
    cases value.display <;> rfl

theorem embeddedAll (items : List Datum) :
    change.Commutes (embeddedAll items)
      (Routine.embeddedAll (Datum.renamedAll change.rename items)) := by
  match items with
  | [] =>
    rw [Datum.renamedAll, Routine.embeddedAll]
    exact of_blind (fun _ => rfl) (.of_ok fun _ => ⟨_, _, rfl⟩)
  | datum :: rest =>
    rw [Datum.renamedAll, Routine.embeddedAll, Routine.embeddedAll]
    apply (embedded datum).bind
    intro h
    apply (embeddedAll rest).bind
    intro handles
    exact of_blind (fun _ => rfl) (.of_ok fun _ => ⟨_, _, rfl⟩)

end

end Commutes

end NameChange

end ScopedLisp
