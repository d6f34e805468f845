import ScopedLisp.Proofs.Ending
import ScopedLisp.Proofs.Scopes.Search

/-!
# Calls on the scopes

Scopes may be entered, left and searched in any order and with any handles. A parent that is asked
for need not be active, so the lexical tree and the stack of active scopes go their own ways; and
leaving a scope or unwinding shortens the stack and keeps the frames. What holds after any such
history is that a parent is older than its child, that the active scopes were made in the order in
which they are stacked, and that the first scope of all is never left.
-/

namespace ScopedLisp

/-- The failure is one that a call on the scopes reports. -/
def Failure.isOfScopes : Failure → Bool
  | .scopeUnderflow _ | .unknownHandle _ _ | .unboundVariable _ => true
  | _ => false

/-- What may be asked of scopes. -/
inductive ScopeCall where
  | enter (parent : Option Handle)
  | exit
  | unwind (depth : Int)
  | bind (symbol value : Handle)
  | assign (symbol value : Handle)
  | lookup (symbol : Handle)
  | isBound (symbol : Handle)
  deriving DecidableEq, Repr

namespace Scopes

/-- How symbols are named if there is a table of them, and if there is none. -/
def namingBy : Option Symbols → Naming
  | some symbols => symbols.name
  | none => fun symbol => .ok symbol.display

/-- The scopes after a call that succeeds. -/
def perform (scopes : Scopes) (naming : Naming) : ScopeCall → Except Failure Scopes
  | .enter parent => (scopes.enter parent).map (·.1)
  | .exit => scopes.exit.map (·.1)
  | .unwind depth => scopes.unwind depth
  | .bind symbol value => scopes.bind symbol value
  | .assign symbol value => scopes.assign naming symbol value
  | .lookup symbol => (scopes.lookup naming symbol).map fun _ => scopes
  | .isBound symbol => (scopes.isBound symbol).map fun _ => scopes

/-- The scopes after a call, which is made while the symbols are in the given table. -/
def afterCall (scopes : Scopes) (request : Option Symbols × ScopeCall) : Scopes :=
  match scopes.perform (namingBy request.1) request.2 with
  | .ok later => later
  | .error _ => scopes

/-- The scopes after several calls, one after the other. -/
def afterCalls (scopes : Scopes) (history : List (Option Symbols × ScopeCall)) : Scopes :=
  history.foldl afterCall scopes

/-! ### The invariant -/

/-- What every history keeps true of the scopes. -/
structure Sound (scopes : Scopes) : Prop where
  parents : scopes.ParentsOlder
  issued : ∀ scope ∈ scopes.active, scopes.Holds scope
  ordered : scopes.active.Pairwise fun inner outer => outer.index < inner.index
  outermost : 0 < scopes.frames.size → scopes.active.getLast? = some (scopes.handleAt 0)

theorem initial_sound (owner : Nat) : (initial owner).Sound where
  parents inside := by cases inside
  issued _ member := by cases member
  ordered := .nil
  outermost some := absurd some (Nat.lt_irrefl 0)

namespace Sound

variable {scopes : Scopes} (sound : scopes.Sound)
include sound

theorem active_ne_nil (made : 0 < scopes.frames.size) : scopes.active ≠ [] := by
  intro empty
  have outermost := sound.outermost made
  rw [empty] at outermost
  cases outermost

/-- A parent that was issued may be given to a new frame, and the frame be entered. -/
theorem push {parent : Option Handle} (held : ∀ {scope}, parent = some scope → scopes.Holds scope) :
    (scopes.push parent).1.Sound where
  parents := by
    intro i frame scope inside above
    simp only [Scopes.push, activate, addFrame, Array.getElem?_push] at inside
    split at inside
    · next newest =>
      cases inside
      subst newest
      exact held above
    · exact sound.parents inside above
  issued := by
    refine List.forall_mem_cons.mpr ⟨⟨scopes.frames.size, ?_, rfl⟩, ?_⟩
    · simp only [Scopes.push, activate, addFrame, Array.size_push]
      exact Nat.lt_succ_self _
    · exact fun scope member => (sound.issued scope member).addFrame parent
  ordered := by
    refine List.pairwise_cons.mpr ⟨fun scope member => ?_, sound.ordered⟩
    obtain ⟨i, below, rfl⟩ := sound.issued scope member
    exact Int.ofNat_lt.mpr below
  outermost _ := by
    -- The stack is empty only before the first frame is made, which then has position zero.
    show (scopes.handleAt scopes.frames.size :: scopes.active).getLast? = some (scopes.handleAt 0)
    rcases Nat.eq_zero_or_pos scopes.frames.size with first | made
    · have empty : scopes.active = [] := by
        apply List.eq_nil_iff_forall_not_mem.mpr
        intro scope member
        obtain ⟨i, below, -⟩ := sound.issued scope member
        omega
      rw [first, empty]
      rfl
    · obtain ⟨scope, outer, active⟩ := List.exists_cons_of_ne_nil (sound.active_ne_nil made)
      have outermost := sound.outermost made
      rw [active] at outermost ⊢
      rw [List.getLast?_cons_cons]
      exact outermost

/-- Scopes may be left as long as one stays. -/
theorem withActive {active : List Handle} (kept : active <:+ scopes.active)
    (stays : scopes.active ≠ [] → active ≠ []) : { scopes with active }.Sound where
  parents := sound.parents
  issued scope member := sound.issued scope (kept.subset member)
  ordered := sound.ordered.sublist kept.sublist
  outermost made := by
    have entered := sound.active_ne_nil made
    have outermost := sound.outermost made
    rw [List.getLast?_eq_some_getLast entered] at outermost
    rw [List.getLast?_eq_some_getLast (stays entered), kept.getLast (stays entered)]
    exact outermost

theorem write (place : Fin scopes.frames.size) (symbol value : Handle) :
    (scopes.write place symbol value).Sound where
  parents := by
    intro i frame scope inside above
    simp only [Scopes.write, Array.getElem?_modify] at inside
    split at inside
    · obtain ⟨former, before, rfl⟩ := Option.map_eq_some_iff.mp inside
      exact sound.parents before above
    · exact sound.parents inside above
  issued scope member := (sound.issued scope member).write place symbol value
  ordered := sound.ordered
  outermost made := by
    simp only [Scopes.write, Array.size_modify] at made
    exact sound.outermost made

theorem parentFor {asked parent : Option Handle} (found : scopes.parentFor asked = .ok parent)
    {scope : Handle} (given : parent = some scope) : scopes.Holds scope := by
  subst given
  cases asked with
  | none =>
    apply sound.issued
    exact List.mem_of_mem_head? (Except.ok.inj found)
  | some other =>
    cases place : scopes.position other with
    | error failure =>
      rw [Scopes.parentFor, place] at found
      cases found
    | ok i =>
      rw [Scopes.parentFor, place] at found
      cases found
      exact ⟨i, i.isLt, position_eq_ok_iff.mp place⟩

end Sound

/-! ### One call -/

variable {scopes later : Scopes} {naming : Naming}

/-- A call that succeeds keeps the invariant, and removes no frame. -/
theorem Sound.perform (sound : scopes.Sound) {call : ScopeCall}
    (done : scopes.perform naming call = .ok later) :
    later.Sound ∧ scopes.frames.size ≤ later.frames.size := by
  cases call with
  | enter asked =>
    obtain ⟨_, entered, rfl⟩ := exists_of_map_ok done
    obtain ⟨parent, found, rfl⟩ := exists_of_map_ok entered
    refine ⟨sound.push (sound.parentFor found), ?_⟩
    simp only [Scopes.push, activate, addFrame, Array.size_push]
    exact Nat.le_succ _
  | exit =>
    obtain ⟨_, left, rfl⟩ := exists_of_map_ok done
    unfold exit at left
    split at left
    · next scope next outer active =>
      cases left
      refine ⟨sound.withActive ?_ fun _ => List.cons_ne_nil _ _, Nat.le_refl _⟩
      rw [active]
      exact List.suffix_cons scope _
    · cases left
  | unwind depth =>
    dsimp only [Scopes.perform, unwind] at done
    split at done
    · cases done
    · next enough =>
      cases done
      refine ⟨sound.withActive (List.drop_suffix _ _) fun entered => ?_, Nat.le_refl _⟩
      have some := List.length_pos_iff.mpr entered
      apply List.length_pos_iff.mp
      rw [List.length_drop]
      omega
  | bind symbol value =>
    obtain ⟨place, -, rfl⟩ := exists_of_map_ok done
    exact ⟨sound.write place symbol value, Nat.le_of_eq Array.size_modify.symm⟩
  | assign symbol value =>
    obtain ⟨place, -, rfl⟩ := exists_of_map_ok done
    exact ⟨sound.write place symbol value, Nat.le_of_eq Array.size_modify.symm⟩
  | lookup symbol =>
    obtain ⟨_, -, rfl⟩ := exists_of_map_ok done
    exact ⟨sound, Nat.le_refl _⟩
  | isBound symbol =>
    obtain ⟨_, -, rfl⟩ := exists_of_map_ok done
    exact ⟨sound, Nat.le_refl _⟩

theorem Sound.afterCall (sound : scopes.Sound) (request : Option Symbols × ScopeCall) :
    (scopes.afterCall request).Sound ∧
      scopes.frames.size ≤ (scopes.afterCall request).frames.size := by
  unfold Scopes.afterCall
  split
  · next later done => exact sound.perform done
  · exact ⟨sound, Nat.le_refl _⟩

/-! #### How it fails -/

/-- A search fails only for want of a current scope. -/
theorem Sound.find?_failsWithin (sound : scopes.Sound) (symbol : Handle) :
    FailsWithin Failure.isOfScopes (scopes.find? symbol) := by
  by_cases empty : scopes.active = []
  · have missing : scopes.find? symbol = .error (.scopeUnderflow .nothingEntered) := by
      simp only [find?, chain, current, empty]
      rfl
    rw [missing]
    exact .error rfl
  · have complete := chain_failure sound.parents sound.issued empty
    obtain ⟨found, search⟩ := exists_find?_eq complete symbol
    rw [search]
    exact .ok found

theorem namingBy_failsWithin (names : Option Symbols) (symbol : Handle) :
    FailsWithin Failure.isOfScopes (namingBy names symbol) := by
  cases names with
  | none => exact .ok _
  | some symbols =>
    intro failure missing
    simp only [namingBy, Symbols.name] at missing
    split at missing <;> cases missing
    rfl

theorem unbound_namingBy_failsWithin {α : Type} (names : Option Symbols) (symbol : Handle) :
    FailsWithin Failure.isOfScopes (unbound (namingBy names) symbol : Except Failure α) :=
  (namingBy_failsWithin names symbol).bind fun _ => .error rfl

theorem position_failsWithin (scopes : Scopes) (scope : Handle) :
    FailsWithin Failure.isOfScopes (scopes.position scope) := by
  intro failure missing
  rw [position_eq_error missing]
  rfl

theorem Sound.perform_failsWithin (sound : scopes.Sound) (names : Option Symbols)
    (call : ScopeCall) :
    FailsWithin Failure.isOfScopes (scopes.perform (namingBy names) call) := by
  cases call with
  | enter asked =>
    apply FailsWithin.map
    apply FailsWithin.map
    cases asked with
    | none => exact .ok _
    | some scope => exact (scopes.position_failsWithin scope).map
  | exit =>
    apply FailsWithin.map
    unfold exit
    split
    · exact .ok _
    · exact .error rfl
  | unwind depth =>
    dsimp only [Scopes.perform, unwind]
    split
    · exact .error rfl
    · exact .ok _
  | bind symbol value =>
    have current : FailsWithin Failure.isOfScopes scopes.current := by
      unfold Scopes.current
      split
      · exact .ok _
      · exact .error rfl
    exact (current.bind fun scope => scopes.position_failsWithin scope).map
  | assign symbol value =>
    apply FailsWithin.map
    rw [bindingPlace_eq]
    apply (sound.find?_failsWithin symbol).bind
    intro hit
    cases hit with
    | none => exact unbound_namingBy_failsWithin names symbol
    | some binding => exact scopes.position_failsWithin binding.1
  | lookup symbol =>
    apply FailsWithin.map
    rw [lookup_eq]
    apply (sound.find?_failsWithin symbol).bind
    intro hit
    cases hit with
    | none => exact unbound_namingBy_failsWithin names symbol
    | some binding => exact .ok _
  | isBound symbol =>
    apply FailsWithin.map
    rw [isBound_eq]
    exact (sound.find?_failsWithin symbol).map

/-! ### Several calls -/

theorem Sound.afterCalls (sound : scopes.Sound) (history : List (Option Symbols × ScopeCall)) :
    (scopes.afterCalls history).Sound ∧
      scopes.frames.size ≤ (scopes.afterCalls history).frames.size := by
  induction history generalizing scopes with
  | nil => exact ⟨sound, Nat.le_refl _⟩
  | cons request others ih =>
    obtain ⟨next, grown⟩ := sound.afterCall request
    obtain ⟨last, further⟩ := ih next
    exact ⟨last, Nat.le_trans grown further⟩

theorem afterCalls_append (scopes : Scopes) (earlier later : List (Option Symbols × ScopeCall)) :
    scopes.afterCalls (earlier ++ later) = (scopes.afterCalls earlier).afterCalls later :=
  List.foldl_append

/-- Entering makes a frame, which stays whatever is called afterwards. -/
theorem frames_pos_of_entered (sound : scopes.Sound) (names : Option Symbols)
    {asked : Option Handle} {entered : Scopes × Handle} (done : scopes.enter asked = .ok entered)
    (rest : List (Option Symbols × ScopeCall)) :
    0 < (scopes.afterCalls ((names, .enter asked) :: rest)).frames.size := by
  have made : scopes.afterCall (names, .enter asked) = entered.1 := by
    simp only [afterCall, perform, done, Except.map]
  obtain ⟨parent, -, rfl⟩ := exists_of_map_ok done
  have next := (sound.afterCall (names, .enter asked)).1
  calc
    0 < (scopes.push parent).1.frames.size := by
      simp only [push, activate, addFrame, Array.size_push, Nat.succ_pos]
    _ = (scopes.afterCall (names, .enter asked)).frames.size := by rw [made]
    _ ≤ ((scopes.afterCall (names, .enter asked)).afterCalls rest).frames.size :=
      (next.afterCalls rest).2

end Scopes

/-! ### Calls on a session -/

namespace Routine

/-- Makes a call on the scopes of a session. -/
def perform : ScopeCall → Routine Unit
  | .enter parent => do let _ ← enterScope parent
  | .exit => exitScope
  | .unwind depth => unwind depth
  | .bind symbol value => bindSymbol symbol value
  | .assign symbol value => assignSymbol symbol value
  | .lookup symbol => do let _ ← lookupSymbol symbol
  | .isBound symbol => do let _ ← ofExcept ((← get).scopes.isBound symbol)

variable {session : Session} {call : ScopeCall}

/-- A call that the scopes answer changes nothing in the session but the scopes and the journal. -/
theorem perform_ok {later : Scopes}
    (done : session.scopes.perform session.store.symbols.name call = .ok later) :
    ∃ journal, perform call session = .ok () { session with scopes := later, journal } := by
  cases call with
  | enter asked =>
    obtain ⟨_, entered, rfl⟩ := exists_of_map_ok done
    obtain ⟨parent, found, rfl⟩ := exists_of_map_ok entered
    exact ⟨_, bind_ok (bind_ok (makeFrame_ok found))⟩
  | exit =>
    obtain ⟨_, left, rfl⟩ := exists_of_map_ok done
    unfold Scopes.exit at left
    split at left
    · next scope next outer active =>
      cases left
      exact ⟨_, bind_ok (leave_eq active)⟩
    · cases left
  | unwind depth => exact ⟨session.journal, unwind_ok done⟩
  | bind symbol value =>
    obtain ⟨place, found, rfl⟩ := exists_of_map_ok done
    exact ⟨session.journal, bindSymbol_ok found⟩
  | assign symbol value =>
    obtain ⟨place, found, rfl⟩ := exists_of_map_ok done
    exact ⟨session.journal, assignSymbol_ok found⟩
  | lookup symbol =>
    obtain ⟨value, found, rfl⟩ := exists_of_map_ok done
    exact ⟨session.journal, bind_ok (lookupSymbol_ok found)⟩
  | isBound symbol =>
    obtain ⟨value, found, rfl⟩ := exists_of_map_ok done
    refine ⟨session.journal, ?_⟩
    simp only [perform, bind, EStateM.bind, get_ok, found]
    rfl

/-- A call that the scopes refuse leaves the session as it is. -/
theorem perform_error {failure : Failure}
    (failed : session.scopes.perform session.store.symbols.name call = .error failure) :
    perform call session = .error failure session := by
  cases call with
  | enter asked =>
    have missing := eq_error_of_map (eq_error_of_map failed)
    exact bind_error (bind_error (makeFrame_error missing))
  | exit => exact bind_error (leave_error (eq_error_of_map failed))
  | unwind depth => exact unwind_error failed
  | bind symbol value => exact bindSymbol_error (eq_error_of_map failed)
  | assign symbol value => exact assignSymbol_error (eq_error_of_map failed)
  | lookup symbol => exact bind_error (lookupSymbol_error (eq_error_of_map failed))
  | isBound symbol =>
    have missing := eq_error_of_map failed
    simp only [perform, bind, EStateM.bind, get_ok, missing]
    rfl

end Routine

/-- The scopes after any calls, from none on. Each call is made with the table of symbols, if any,
that is there at the time.

A parent is older than its child, so every chain ends that starts at a scope that was issued. The
active scopes were issued, the inner ones after the outer ones; and once any scope has been entered,
the first one of all is active, outermost. A call fails because of the depth of the stack, a handle
that was not issued or a symbol that is not bound, and for no other reason. Made on a session, a
call does to the scopes just this, and one that fails leaves the session as it is. -/
theorem scopes_sound_after_calls (owner : Nat) (history : List (Option Symbols × ScopeCall)) :
    let scopes := (Scopes.initial owner).afterCalls history
    (∀ i frame parent, scopes.frames[i]? = some frame → frame.parent = some parent →
      ∃ j < i, parent = scopes.handleAt j) ∧
    (∀ i < scopes.frames.size, (scopes.chainOf (scopes.handleAt i)).failure = none) ∧
    (∀ scope ∈ scopes.active, ∃ i < scopes.frames.size, scope = scopes.handleAt i) ∧
    (scopes.active.Pairwise fun inner outer => outer.index < inner.index) ∧
    (∀ earlier names asked rest entered, history = earlier ++ (names, .enter asked) :: rest →
      ((Scopes.initial owner).afterCalls earlier).enter asked = .ok entered →
        scopes.active.getLast? = some (scopes.handleAt 0) ∧ 1 ≤ scopes.depth) ∧
    (∀ names call failure, scopes.perform (Scopes.namingBy names) call = .error failure →
      failure.isOfScopes = true) ∧
    ∀ (session : Session) (call : ScopeCall), session.scopes = scopes →
      match Routine.perform call session with
      | .ok _ left => scopes.perform session.store.symbols.name call = .ok left.scopes
      | .error failure left =>
        scopes.perform session.store.symbols.name call = .error failure ∧ left = session := by
  intro scopes
  have sound : scopes.Sound := ((Scopes.initial_sound owner).afterCalls history).1
  refine ⟨fun i frame parent inside above => ?_, fun i below => ?_, fun scope member => ?_,
    sound.ordered, ?_, fun names call => ?_, ?_⟩
  · exact sound.parents inside above
  · exact Scopes.chainOf_failure sound.parents ⟨i, below, rfl⟩
  · exact sound.issued scope member
  · intro earlier names asked rest entered split done
    have before := ((Scopes.initial_sound owner).afterCalls earlier).1
    have made : 0 < scopes.frames.size := by
      have later := Scopes.frames_pos_of_entered before names done rest
      rw [← Scopes.afterCalls_append, ← split] at later
      exact later
    exact ⟨sound.outermost made, List.length_pos_iff.mpr (sound.active_ne_nil made)⟩
  · exact sound.perform_failsWithin names call
  · intro session call same
    rw [← same]
    cases ending : session.scopes.perform session.store.symbols.name call with
    | ok later =>
      obtain ⟨journal, ran⟩ := Routine.perform_ok ending
      rw [ran]
    | error failure =>
      rw [Routine.perform_error ending]
      exact ⟨rfl, rfl⟩

end ScopedLisp
