import ScopedLisp.Proofs.Eval.Reading
import ScopedLisp.Proofs.Store.Chain

/-!
# Searching the scopes

A lookup, the question whether a symbol is bound and an assignment each go along the lexical chain
of the current scope on their own. `find?` is the search that the three have in common: they stop at
the same frame, and they fail together unless the symbol is nowhere bound (`lookup_eq`,
`isBound_eq`, `bindingPlace_eq`).

A search can fail because no scope is active, because a handle on the way was never issued, or
because the symbol is not bound; what it finds is bound in a frame that exists. Nothing is assumed
of the scopes for that. Where parents are older than their children, the chain of every scope that
was issued ends.
-/

namespace ScopedLisp

/-- The failure is an ordinary one, or about the host's stack, the active scopes or the step
limit. -/
def Failure.isOfCalls : Failure → Bool
  | .stackExhausted | .recursionDepthExceeded | .scopeUnderflow _ | .stepLimitExceeded _ => true
  | failure => failure.isOrdinary

/-- Ordinary failures can come out of calls. -/
theorem Failure.isOfCalls_of_isOrdinary {failure : Failure} (ordinary : failure.isOrdinary = true) :
    failure.isOfCalls = true := by
  cases failure with
  | stackExhausted | recursionDepthExceeded | scopeUnderflow _ | stepLimitExceeded _ => rfl
  | _ => exact ordinary

/-- What the first entry with a hit gives. A listing that was cut short before any hit fails. -/
def Listing.firstHit {α β : Type} (hit : α → Option β) (listing : Listing α) :
    Except Failure (Option β) :=
  match listing.items.findSome? hit, listing.failure with
  | some found, _ => .ok (some found)
  | none, none => .ok none
  | none, some failure => .error failure

/-- The first hit is the first item if that hits, and else is found in the rest. -/
theorem Listing.firstHit_cons {α β : Type} (hit : α → Option β) (item : α) (rest : Listing α) :
    (rest.cons item).firstHit hit =
      match hit item with
      | some found => .ok (some found)
      | none => rest.firstHit hit := by
  simp only [firstHit, Listing.cons, List.findSome?_cons]
  cases hit item <;> rfl

/-- A listing that is complete has a first hit or none. -/
theorem Listing.exists_firstHit {α β : Type} {listing : Listing α}
    (complete : listing.failure = none) (hit : α → Option β) :
    ∃ found, listing.firstHit hit = .ok found := by
  unfold firstHit
  rw [complete]
  cases listing.items.findSome? hit with
  | none => exact ⟨none, rfl⟩
  | some found => exact ⟨some found, rfl⟩

namespace Scopes

/-- The failures that a search may end in: ordinary ones, and if no scope is active, that. -/
structure AllowsSearch (allowed : Failure → Bool) (scopes : Scopes) : Prop where
  ordinary : ∀ {failure : Failure}, failure.isOrdinary = true → allowed failure = true
  empty : scopes.active = [] → allowed (.scopeUnderflow .nothingEntered) = true

namespace AllowsSearch

variable {scopes : Scopes}

theorem plainly (entered : scopes.active ≠ []) : AllowsSearch Failure.isPlain scopes :=
  ⟨Failure.isPlain_of_isOrdinary, fun empty => absurd empty entered⟩

theorem ofEvaluation (scopes : Scopes) : AllowsSearch Failure.isOfEvaluation scopes where
  ordinary plain := Failure.isOfEvaluation_of_isPlain (Failure.isPlain_of_isOrdinary plain)
  empty _ := rfl

theorem ofCalls (scopes : Scopes) : AllowsSearch Failure.isOfCalls scopes :=
  ⟨Failure.isOfCalls_of_isOrdinary, fun _ => rfl⟩

end AllowsSearch

variable {scopes : Scopes}

/-- With a scope entered there is a current scope. -/
theorem current_eq (entered : scopes.active ≠ []) : ∃ scope, scopes.current = .ok scope := by
  unfold current
  cases active : scopes.active with
  | nil => exact absurd active entered
  | cons scope outer => exact ⟨scope, rfl⟩

/-- A handle has a place exactly if it is the handle of that place. -/
theorem position_eq_ok_iff {h : Handle} {i : Fin scopes.frames.size} :
    scopes.position h = .ok i ↔ h = scopes.handleAt i := by
  rw [handleAt, ← Handle.position?_eq_some_iff]
  unfold position
  cases h.position? .scopes scopes.owner scopes.frames.size with
  | none => exact ⟨nofun, nofun⟩
  | some place => exact ⟨fun same => congrArg some (Except.ok.inj same),
      fun same => congrArg Except.ok (Option.some.inj same)⟩

/-- A handle without a place is reported as unknown to the scopes. -/
theorem position_eq_error {h : Handle} {failure : Failure}
    (missing : scopes.position h = .error failure) : failure = .unknownHandle h .scopes := by
  unfold position at missing
  split at missing <;> cases missing
  rfl

theorem position_failsOrdinarily (scopes : Scopes) (h : Handle) :
    FailsOrdinarily (scopes.position h) := by
  intro failure missing
  rw [position_eq_error missing]
  rfl

theorem parentFor_failsOrdinarily (scopes : Scopes) (parent : Option Handle) :
    FailsOrdinarily (scopes.parentFor parent) := by
  cases parent with
  | none => exact .ok _
  | some scope => exact (scopes.position_failsOrdinarily scope).map

theorem frame_eq_error {h : Handle} {failure : Failure}
    (missing : scopes.frame h = .error failure) : failure = .unknownHandle h .scopes := by
  unfold Scopes.frame at missing
  cases place : scopes.position h with
  | error other =>
    rw [place] at missing
    cases missing
    exact position_eq_error place
  | ok i =>
    rw [place] at missing
    cases missing

/-- What has a frame was issued, and the frame is where its handle says. -/
theorem exists_index_of_frame {h : Handle} {frame : Frame} (found : scopes.frame h = .ok frame) :
    ∃ i < scopes.frames.size, h = scopes.handleAt i ∧ scopes.frames[i]? = some frame := by
  unfold Scopes.frame at found
  obtain ⟨i, place, same⟩ := exists_of_map_ok found
  exact ⟨i, i.isLt, position_eq_ok_iff.mp place, Array.getElem?_eq_some_iff.mpr ⟨i.isLt, same⟩⟩

theorem frame_handleAt {i : Nat} {frame : Frame} (inside : scopes.frames[i]? = some frame) :
    scopes.frame (scopes.handleAt i) = .ok frame := by
  obtain ⟨below, same⟩ := Array.getElem?_eq_some_iff.mp inside
  have place : scopes.position (scopes.handleAt i) = .ok ⟨i, below⟩ := position_eq_ok_iff.mpr rfl
  rw [Scopes.frame, place]
  exact congrArg Except.ok same

/-! ### Three walks and one search -/

/-- A scope that binds the symbol, and what it binds it to. -/
def bindingOf (symbol : Handle) : Handle × Frame → Option (Handle × Handle) :=
  fun (scope, frame) => (frame.bindings.get? symbol).map (scope, ·)

/-- The first scope on the current chain that binds the symbol, and what it binds it to. -/
def find? (scopes : Scopes) (symbol : Handle) : Except Failure (Option (Handle × Handle)) :=
  scopes.chain.firstHit (bindingOf symbol)

/-- What a lookup makes of the outcome of a search. -/
def valueFound (naming : Naming) (symbol : Handle) :
    Option (Handle × Handle) → Except Failure Handle
  | some (_, value) => .ok value
  | none => unbound naming symbol

/-- What an assignment makes of the outcome of a search. -/
def placeFound (scopes : Scopes) (naming : Naming) (symbol : Handle) :
    Option (Handle × Handle) → Except Failure (Fin scopes.frames.size)
  | some (scope, _) => scopes.position scope
  | none => unbound naming symbol

section Walks

variable (entries : List (Handle × Frame)) (symbol : Handle)

/-- The first value found is the value of the first binding. -/
theorem findSome?_get? :
    (entries.findSome? fun entry => entry.2.bindings.get? symbol) =
      (entries.findSome? (bindingOf symbol)).map Prod.snd := by
  induction entries with
  | nil => rfl
  | cons entry rest ih =>
    obtain ⟨scope, frame⟩ := entry
    rw [List.findSome?_cons, List.findSome?_cons, ih, bindingOf]
    cases frame.bindings.get? symbol <;> rfl

/-- The first scope that has the symbol is the scope of the first binding. -/
theorem find?_has :
    (entries.find? fun entry => entry.2.bindings.has symbol).map Prod.fst =
      (entries.findSome? (bindingOf symbol)).map Prod.fst := by
  induction entries with
  | nil => rfl
  | cons entry rest ih =>
    obtain ⟨scope, frame⟩ := entry
    rw [List.find?_cons, List.findSome?_cons, bindingOf, Assoc.has]
    cases frame.bindings.get? symbol with
    | none => exact ih
    | some value => rfl

/-- Some scope has the symbol exactly if there is a first binding. -/
theorem any_has :
    (entries.any fun entry => entry.2.bindings.has symbol) =
      (entries.findSome? (bindingOf symbol)).isSome := by
  induction entries with
  | nil => rfl
  | cons entry rest ih =>
    obtain ⟨scope, frame⟩ := entry
    rw [List.any_cons, List.findSome?_cons, ih, bindingOf, Assoc.has]
    cases frame.bindings.get? symbol <;> rfl

end Walks

/-- A lookup gives the value that a search finds. -/
theorem lookup_eq (scopes : Scopes) (naming : Naming) (symbol : Handle) :
    scopes.lookup naming symbol = scopes.find? symbol >>= valueFound naming symbol := by
  unfold lookup nowhereBound find? Listing.firstHit
  rw [findSome?_get?]
  cases scopes.chain.items.findSome? (bindingOf symbol) with
  | some hit => rfl
  | none => cases scopes.chain.failure <;> rfl

/-- A symbol is bound if a search finds something. -/
theorem isBound_eq (scopes : Scopes) (symbol : Handle) :
    scopes.isBound symbol = (scopes.find? symbol).map Option.isSome := by
  unfold isBound find? Listing.firstHit
  rw [any_has]
  cases scopes.chain.items.findSome? (bindingOf symbol) with
  | some hit => rfl
  | none => cases scopes.chain.failure <;> rfl

/-- An assignment goes to the scope that a search finds. -/
theorem bindingPlace_eq (scopes : Scopes) (naming : Naming) (symbol : Handle) :
    scopes.bindingPlace naming symbol =
      scopes.find? symbol >>= scopes.placeFound naming symbol := by
  have stops := find?_has scopes.chain.items symbol
  unfold bindingPlace nowhereBound find? Listing.firstHit
  cases walked : scopes.chain.items.find? fun entry => entry.2.bindings.has symbol with
  | some entry =>
    rw [walked] at stops
    obtain ⟨hit, found, same⟩ := Option.map_eq_some_iff.mp stops.symm
    rw [found, ok_bind rfl, placeFound, same]
  | none =>
    rw [walked] at stops
    rw [Option.map_eq_none_iff.mp stops.symm]
    cases scopes.chain.failure <;> rfl

/-! ### How a search fails -/

/-- Following the parents fails only at a handle that stands for no scope. -/
theorem chainWithin_failsOrdinarily (scopes : Scopes) (steps : Nat) (scope : Handle) :
    FailsOrdinarily (scopes.chainWithin steps scope).all := by
  induction steps generalizing scope with
  | zero =>
    have limit : FailsOrdinarily (Listing.failed .endlessWalk : Listing (Handle × Frame)).all :=
      .error rfl
    exact limit
  | succ steps ih =>
    unfold chainWithin
    split
    · next failure missing =>
      rw [frame_eq_error missing]
      have missing : FailsOrdinarily
          (Listing.failed (.unknownHandle scope .scopes) : Listing (Handle × Frame)).all :=
        .error rfl
      exact missing
    · next frame _ =>
      cases frame.parent with
      | none => exact .ok _
      | some parent => exact .cons (ih parent)

section Allowed

variable {allowed : Failure → Bool} (law : AllowsSearch allowed scopes) {naming : Naming}
include law

theorem current_failsWithin : FailsWithin allowed scopes.current := by
  unfold current
  split
  · exact .ok _
  · next empty => exact .error (law.empty empty)

theorem chain_failsWithin : FailsWithin allowed scopes.chain.all := by
  unfold chain
  split
  · next scope _ => exact (scopes.chainWithin_failsOrdinarily _ scope).mono fun _ => law.ordinary
  · next failure missing => exact .error (current_failsWithin law failure missing)

/-- A search fails only as its chain of scopes does. -/
theorem find?_failsWithin (symbol : Handle) : FailsWithin allowed (scopes.find? symbol) := by
  intro failure missing
  unfold find? Listing.firstHit at missing
  split at missing
  · cases missing
  · cases missing
  · next other _ ending =>
    cases missing
    apply chain_failsWithin law failure
    rw [Listing.all, ending]

/-- Reporting an unbound symbol fails with that report or while its name is looked up. -/
theorem unbound_failsWithin {α : Type} {symbol : Handle}
    (named : FailsOrdinarily (naming symbol)) :
    FailsWithin allowed (unbound naming symbol : Except Failure α) :=
  (named.mono fun _ => law.ordinary).bind fun _ => .error (law.ordinary rfl)

/-- A lookup fails as a search does, or because the symbol is unbound. -/
theorem lookup_failsWithin {symbol : Handle} (named : FailsOrdinarily (naming symbol)) :
    FailsWithin allowed (scopes.lookup naming symbol) := by
  rw [lookup_eq]
  apply (find?_failsWithin law symbol).bind
  intro found
  cases found with
  | none => exact unbound_failsWithin law named
  | some binding => exact .ok _

/-- Looking for the place of a binding fails as a search does, or because the symbol is unbound. -/
theorem bindingPlace_failsWithin {symbol : Handle} (named : FailsOrdinarily (naming symbol)) :
    FailsWithin allowed (scopes.bindingPlace naming symbol) := by
  rw [bindingPlace_eq]
  apply (find?_failsWithin law symbol).bind
  intro found
  cases found with
  | none => exact unbound_failsWithin law named
  | some binding => exact (scopes.position_failsOrdinarily binding.1).mono fun _ => law.ordinary

theorem currentPlace_failsWithin : FailsWithin allowed scopes.currentPlace := by
  apply (current_failsWithin law).bind
  intro scope
  exact (scopes.position_failsOrdinarily scope).mono fun _ => law.ordinary

end Allowed

/-! ### What a search finds -/

/-- Each entry of a chain shows a scope with the frame that is stored for it. -/
theorem frame_of_mem_chainWithin {steps : Nat} {scope : Handle} {entry : Handle × Frame}
    (member : entry ∈ (scopes.chainWithin steps scope).items) :
    scopes.frame entry.1 = .ok entry.2 := by
  induction steps generalizing scope with
  | zero => cases member
  | succ steps ih =>
    unfold chainWithin at member
    split at member
    · cases member
    · next frame found =>
      rcases List.mem_cons.mp member with rfl | further
      · exact found
      · cases above : frame.parent with
        | none =>
          rw [above] at further
          cases further
        | some parent =>
          rw [above] at further
          exact ih further

theorem frame_of_mem_chain {entry : Handle × Frame} (member : entry ∈ scopes.chain.items) :
    scopes.frame entry.1 = .ok entry.2 := by
  unfold chain at member
  split at member
  · exact frame_of_mem_chainWithin member
  · cases member

/-- What a search finds is what the frame of the scope that it finds binds the symbol to. -/
theorem find?_eq_some {symbol scope value : Handle}
    (found : scopes.find? symbol = .ok (some (scope, value))) :
    ∃ frame, scopes.frame scope = .ok frame ∧ frame.bindings.get? symbol = some value := by
  unfold find? Listing.firstHit at found
  split at found
  · next hit search =>
    cases found
    obtain ⟨⟨place, frame⟩, member, bound⟩ := List.exists_of_findSome?_eq_some search
    obtain ⟨other, known, same⟩ := Option.map_eq_some_iff.mp bound
    cases same
    exact ⟨frame, frame_of_mem_chain member, known⟩
  · cases found
  · cases found

/-- An assignment goes to a frame that binds the symbol already. -/
theorem has_of_bindingPlace {naming : Naming} {symbol : Handle} {place : Fin scopes.frames.size}
    (found : scopes.bindingPlace naming symbol = .ok place) {frame : Frame}
    (inside : scopes.frames[place.val]? = some frame) : frame.bindings.has symbol = true := by
  rw [bindingPlace_eq] at found
  obtain ⟨hit, search, position⟩ := exists_of_bind_ok found
  cases hit with
  | none => exact absurd position (bind_throw_ne_ok _ _ _)
  | some binding =>
    obtain ⟨scope, value⟩ := binding
    obtain ⟨other, stored, known⟩ := find?_eq_some search
    rw [position_eq_ok_iff.mp position, frame_handleAt inside] at stored
    cases stored
    rw [Assoc.has, known]
    rfl

/-- A binding is written into the frame of the current scope. -/
theorem currentPlace_eq_ok {place : Fin scopes.frames.size}
    (found : scopes.currentPlace = .ok place) :
    scopes.current = .ok (scopes.handleAt place) := by
  obtain ⟨scope, current, position⟩ := exists_of_bind_ok found
  rw [current, position_eq_ok_iff.mp position]

/-! ### Where a chain ends -/

/-- The scope was issued. -/
def Holds (scopes : Scopes) (scope : Handle) : Prop :=
  scope.IssuedBefore .scopes scopes.owner scopes.frames.size

/-- Adding a frame keeps the scopes there are. -/
theorem Holds.addFrame {scope : Handle} (held : scopes.Holds scope) (parent : Option Handle) :
    (scopes.addFrame parent).1.Holds scope := by
  unfold Holds Scopes.addFrame
  rw [Array.size_push]
  exact held.mono (Nat.le_succ _)

/-- Writing a binding keeps the scopes there are. -/
theorem Holds.write {scope : Handle} (held : scopes.Holds scope) (place : Fin scopes.frames.size)
    (symbol value : Handle) : (scopes.write place symbol value).Holds scope := by
  unfold Holds Scopes.write
  rw [Array.size_modify]
  exact held

/-- The parent of a frame was issued before the frame was made. -/
def ParentsOlder (scopes : Scopes) : Prop :=
  ∀ {i : Nat} {frame : Frame} {parent : Handle}, scopes.frames[i]? = some frame →
    frame.parent = some parent → parent.IssuedBefore .scopes scopes.owner i

/-- A walk along the parents of a scope ends within as many steps as scopes were issued up to it. -/
theorem chainWithin_failure (older : scopes.ParentsOlder) {steps : Nat} {scope : Handle}
    (issued : scope.IssuedBefore .scopes scopes.owner steps) (held : scopes.Holds scope) :
    (scopes.chainWithin steps scope).failure = none := by
  induction steps generalizing scope with
  | zero =>
    obtain ⟨_, below, _⟩ := issued
    cases below
  | succ steps ih =>
    obtain ⟨j, bound, rfl⟩ := held
    obtain ⟨i, below, same⟩ := issued
    obtain rfl : j = i := by
      simp only [Handle.mk.injEq, Int.natCast_inj, true_and, and_true] at same
      exact same
    obtain ⟨frame, inside⟩ : ∃ frame, scopes.frames[j]? = some frame :=
      ⟨_, Array.getElem?_eq_getElem bound⟩
    have found : scopes.frame ⟨.scopes, j, scopes.owner⟩ = .ok frame := frame_handleAt inside
    unfold chainWithin
    rw [found]
    dsimp only
    cases above : frame.parent with
    | none => rfl
    | some parent =>
      have before := older inside above
      exact ih (before.mono (Nat.le_of_lt_succ below)) (before.mono (Nat.le_of_lt bound))

/-- Where parents are older than their children, the chain of a scope ends at a scope without
parent. -/
theorem chainOf_failure (older : scopes.ParentsOlder) {scope : Handle} (held : scopes.Holds scope) :
    (scopes.chainOf scope).failure = none :=
  chainWithin_failure older (held.mono (Nat.le_succ _)) held

/-- If the active scopes were issued and there are some, the chain of the current one ends. -/
theorem chain_failure (older : scopes.ParentsOlder)
    (issued : ∀ scope ∈ scopes.active, scopes.Holds scope) (entered : scopes.active ≠ []) :
    scopes.chain.failure = none := by
  obtain ⟨scope, outer, active⟩ := List.exists_cons_of_ne_nil entered
  have current : scopes.current = .ok scope := by rw [Scopes.current, active]
  have held := issued scope (active ▸ List.mem_cons_self)
  rw [chain, current]
  exact chainOf_failure older held

/-- Along a chain that ends, a search does not fail. -/
theorem exists_find?_eq (complete : scopes.chain.failure = none) (symbol : Handle) :
    ∃ found, scopes.find? symbol = .ok found :=
  Listing.exists_firstHit complete _

end Scopes

end ScopedLisp
