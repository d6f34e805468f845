import ScopedLisp.Proofs.Scopes.Bindings
import ScopedLisp.Proofs.Scopes.History

/-!
# Assignments

A lookup, the question whether a symbol is bound and an assignment all go along the chain of the
current scope, so they succeed together. What an assignment changes is a single binding, in the
first frame on that chain that binds the symbol. Frames form a tree that all scopes and procedures
share, and so the new value is seen from other scopes too: from those on whose chains the changed
frame is the first one that binds the symbol, and from no others.
-/

namespace ScopedLisp

namespace Scopes

/-- The first scope on the chain of `scope` that binds the symbol, and what it binds it to. -/
def findFrom? (scopes : Scopes) (scope symbol : Handle) :
    Except Failure (Option (Handle × Handle)) :=
  (scopes.chainOf scope).firstHit (bindingOf symbol)

variable {scopes later : Scopes} {naming : Naming} {symbol value : Handle}

theorem find?_eq_findFrom? {scope : Handle} (current : scopes.current = .ok scope)
    (symbol : Handle) : scopes.find? symbol = scopes.findFrom? scope symbol := by
  rw [find?, chain, current]
  rfl

/-! ### The outcome of a search -/

theorem lookup_eq_ok_iff :
    scopes.lookup naming symbol = .ok value ↔
      ∃ scope, scopes.find? symbol = .ok (some (scope, value)) := by
  constructor
  · intro looked
    rw [lookup_eq] at looked
    obtain ⟨found, search, read⟩ := exists_of_bind_ok looked
    cases found with
    | none => exact absurd read (bind_throw_ne_ok _ _ _)
    | some hit =>
      cases read
      exact ⟨hit.1, search⟩
  · rintro ⟨scope, search⟩
    rw [lookup_eq]
    exact ok_bind search

theorem isBound_eq_true_iff :
    scopes.isBound symbol = .ok true ↔ ∃ hit, scopes.find? symbol = .ok (some hit) := by
  rw [isBound_eq]
  constructor
  · intro bound
    obtain ⟨found, search, verdict⟩ := exists_of_map_ok bound
    obtain ⟨hit, rfl⟩ := Option.isSome_iff_exists.mp verdict
    exact ⟨hit, search⟩
  · rintro ⟨hit, search⟩
    rw [search]
    rfl

/-- What a search finds is a place among the frames. -/
theorem exists_place_of_find? {scope : Handle}
    (search : scopes.find? symbol = .ok (some (scope, value))) :
    ∃ place : Fin scopes.frames.size, scope = scopes.handleAt place := by
  obtain ⟨frame, stored, -⟩ := find?_eq_some search
  obtain ⟨i, below, rfl, -⟩ := exists_index_of_frame stored
  exact ⟨⟨i, below⟩, rfl⟩

/-- The frame at that place binds the symbol. -/
theorem has_of_find? {place : Fin scopes.frames.size}
    (search : scopes.find? symbol = .ok (some (scopes.handleAt place, value))) :
    ∃ frame, scopes.frame (scopes.handleAt place) = .ok frame ∧
      frame.bindings.has symbol = true := by
  obtain ⟨frame, stored, known⟩ := find?_eq_some search
  exact ⟨frame, stored, Option.isSome_iff_exists.mpr ⟨value, known⟩⟩

/-- An assignment is a write into the frame that a search finds. -/
theorem assign_eq_ok_iff :
    scopes.assign naming symbol value = .ok later ↔
      ∃ (place : Fin scopes.frames.size) (old : Handle),
        scopes.find? symbol = .ok (some (scopes.handleAt place, old)) ∧
          later = scopes.write place symbol value := by
  constructor
  · intro assigned
    obtain ⟨place, found, rfl⟩ := exists_of_map_ok assigned
    rw [bindingPlace_eq] at found
    obtain ⟨hit, search, position⟩ := exists_of_bind_ok found
    cases hit with
    | none => exact absurd position (bind_throw_ne_ok _ _ _)
    | some hit =>
      obtain ⟨scope, old⟩ := hit
      obtain rfl := position_eq_ok_iff.mp position
      exact ⟨place, old, search, rfl⟩
  · rintro ⟨place, old, search, rfl⟩
    have found : scopes.bindingPlace naming symbol = .ok place := by
      rw [bindingPlace_eq, ok_bind search]
      exact position_eq_ok_iff.mpr rfl
    rw [assign, found]
    rfl

theorem exists_assign_iff :
    (∃ later, scopes.assign naming symbol value = .ok later) ↔
      ∃ hit, scopes.find? symbol = .ok (some hit) := by
  constructor
  · rintro ⟨later, assigned⟩
    obtain ⟨place, old, search, -⟩ := assign_eq_ok_iff.mp assigned
    exact ⟨_, search⟩
  · rintro ⟨⟨scope, old⟩, search⟩
    obtain ⟨place, rfl⟩ := exists_place_of_find? search
    exact ⟨_, assign_eq_ok_iff.mpr ⟨place, old, search, rfl⟩⟩

/-! ### Searches after a write -/

section Write

variable {place : Fin scopes.frames.size}

/-- The frame at a scope once a binding is written at a place. -/
theorem frame_write (place : Fin scopes.frames.size) (symbol value scope : Handle) :
    (scopes.write place symbol value).frame scope = (scopes.frame scope).map fun frame =>
      if scope = scopes.handleAt place then
        { frame with bindings := frame.bindings.put symbol value }
      else frame := by
  have size : (scopes.write place symbol value).frames.size = scopes.frames.size :=
    Array.size_modify
  have inside (i : Nat) : (scopes.write place symbol value).frames[i]? =
      if place.val = i then scopes.frames[i]?.map fun frame =>
        { frame with bindings := frame.bindings.put symbol value }
      else scopes.frames[i]? := Array.getElem?_modify
  cases found : scopes.frame scope with
  | ok frame =>
    obtain ⟨i, -, rfl, stored⟩ := exists_index_of_frame found
    have same : scopes.handleAt i = scopes.handleAt place ↔ place.val = i := by
      simp only [handleAt, Handle.mk.injEq, Int.natCast_inj, true_and, and_true, eq_comm]
    apply frame_handleAt
    rw [inside, stored]
    simp only [same]
    split <;> rfl
  | error failure =>
    rw [frame_eq_error found]
    cases written : (scopes.write place symbol value).frame scope with
    | error other =>
      rw [frame_eq_error written]
      rfl
    | ok frame =>
      obtain ⟨i, below, rfl, -⟩ := exists_index_of_frame written
      rw [size] at below
      have stored := frame_handleAt (Array.getElem?_eq_getElem below)
      cases found.symm.trans stored

/-- What is found of the symbol `other` once `symbol` stands for `value` in the frame at `i`, if
`hit` was found before. -/
def rebound (scopes : Scopes) (i : Nat) (symbol value other : Handle) (hit : Handle × Handle) :
    Handle × Handle :=
  (hit.1, if other = symbol ∧ hit.1 = scopes.handleAt i then value else hit.2)

theorem bindingOf_write (symbol value other scope : Handle) {frame : Frame}
    (known : scope = scopes.handleAt place → frame.bindings.has symbol = true) :
    bindingOf other (scope, if scope = scopes.handleAt place then
        { frame with bindings := frame.bindings.put symbol value } else frame) =
      (bindingOf other (scope, frame)).map (scopes.rebound place symbol value other) := by
  simp only [bindingOf, Option.map_map, Function.comp_def, rebound]
  by_cases written : other = symbol ∧ scope = scopes.handleAt place
  · obtain ⟨rfl, here⟩ := written
    obtain ⟨old, stands⟩ := Option.isSome_iff_exists.mp (known here)
    rw [if_pos here, Assoc.get?_put, if_pos rfl, stands, Option.map_some, Option.map_some,
      if_pos ⟨rfl, here⟩]
  · have same : (if scope = scopes.handleAt place then
        { frame with bindings := frame.bindings.put symbol value } else frame).bindings.get? other =
          frame.bindings.get? other := by
      split
      · next here =>
        rw [Assoc.get?_put, if_neg]
        exact fun same => written ⟨same.symm, here⟩
      · rfl
    simp only [same, if_neg written]

section Known

variable {frame : Frame} (stored : scopes.frame (scopes.handleAt place) = .ok frame)
  (known : frame.bindings.has symbol = true)
include stored known

/-- A search along the parents stops at the same frame after the write as before. The symbol was
bound there already, so no frame comes to bind it that did not. -/
theorem searchWithin_write (value other : Handle) (steps : Nat) (scope : Handle) :
    ((scopes.write place symbol value).chainWithin steps scope).firstHit (bindingOf other) =
      ((scopes.chainWithin steps scope).firstHit (bindingOf other)).map
        (Option.map (scopes.rebound place symbol value other)) := by
  induction steps generalizing scope with
  | zero => rfl
  | succ steps ih =>
    unfold chainWithin
    rw [frame_write]
    cases found : scopes.frame scope with
    | error failure => rfl
    | ok frame =>
      have here : scope = scopes.handleAt place → frame.bindings.has symbol = true := by
        rintro rfl
        rw [stored] at found
        cases found
        exact known
      have above : (if scope = scopes.handleAt place then
          { frame with bindings := frame.bindings.put symbol value } else frame).parent =
            frame.parent := by
        split <;> rfl
      simp only [Except.map, Listing.firstHit_cons, bindingOf_write symbol value other scope here,
        above]
      cases bindingOf other (scope, frame) with
      | some hit => rfl
      | none =>
        cases frame.parent with
        | none => rfl
        | some parent => exact ih parent

theorem findFrom?_write (value scope other : Handle) :
    (scopes.write place symbol value).findFrom? scope other =
      (scopes.findFrom? scope other).map
        (Option.map (scopes.rebound place symbol value other)) := by
  have size : (scopes.write place symbol value).frames.size = scopes.frames.size :=
    Array.size_modify
  rw [findFrom?, chainOf, size]
  exact searchWithin_write stored known value other _ scope

theorem keys_write (value : Handle) (i : Nat) :
    (scopes.write place symbol value).frames[i]?.map (·.bindings.keys) =
      scopes.frames[i]?.map (·.bindings.keys) := by
  simp only [write, Array.getElem?_modify]
  split
  · next here =>
    subst here
    have inside := Array.getElem?_eq_getElem place.isLt
    rw [frame_handleAt inside] at stored
    cases stored
    rw [inside]
    exact congrArg some ((Assoc.keys_put _ symbol value).trans (if_pos known))
  · rfl

end Known

/-- Of the scopes, a write of a symbol that is bound at the place changes one binding there. -/
theorem binds_write (place : Fin scopes.frames.size) (symbol value : Handle) :
    scopes.Binds (scopes.write place symbol value) place [(symbol, value)] := by
  rw [← writeAll_nil (scopes.write place symbol value) place, writeAll_write]
  exact binds_writeAll place (List.nodup_singleton _)

end Write

end Scopes

/-- The scopes after any calls, as long as some scope is active.

A symbol can be looked up just if it is bound, and just then a value can be assigned to it. An
assignment changes one binding: what the symbol stands for in the first frame on the current chain
that binds it, which is where a lookup finds it. From any scope, every symbol is found in the same
frame as before. It stands for the new value if it is the symbol and that frame is the one that was
changed, and else for what it stood for before; a symbol that was not found is not found now. -/
theorem assignment_changes_one_binding (owner : Nat)
    (history : List (Option Symbols × ScopeCall))
    (entered : ((Scopes.initial owner).afterCalls history).active ≠ [])
    (naming : Scopes.Naming) (symbol : Handle) :
    let scopes := (Scopes.initial owner).afterCalls history
    (∃ verdict, scopes.isBound symbol = .ok verdict) ∧
    ((∃ value, scopes.lookup naming symbol = .ok value) ↔ scopes.isBound symbol = .ok true) ∧
    (∀ value, (∃ later, scopes.assign naming symbol value = .ok later) ↔
      scopes.isBound symbol = .ok true) ∧
    ∀ (value : Handle) (later : Scopes), scopes.assign naming symbol value = .ok later →
      ∃ current i old, scopes.current = .ok current ∧
        scopes.findFrom? current symbol = .ok (some (scopes.handleAt i, old)) ∧
        scopes.lookup naming symbol = .ok old ∧
        scopes.Binds later i [(symbol, value)] ∧
        (∀ j : Nat,
          later.frames[j]?.map (·.bindings.keys) = scopes.frames[j]?.map (·.bindings.keys)) ∧
        ∀ scope, scopes.Holds scope → ∀ other, ∃ found,
          scopes.findFrom? scope other = .ok found ∧
          later.findFrom? scope other = .ok (found.map fun (place, bound) =>
            (place, if other = symbol ∧ place = scopes.handleAt i then value else bound)) := by
  intro scopes
  have sound : scopes.Sound := ((Scopes.initial_sound owner).afterCalls history).1
  obtain ⟨current, known⟩ := Scopes.current_eq entered
  obtain ⟨found, search⟩ := Scopes.exists_find?_eq
    (Scopes.chain_failure sound.parents sound.issued entered) symbol
  refine ⟨⟨found.isSome, ?_⟩, ?_, fun value => ?_, ?_⟩
  · rw [Scopes.isBound_eq, search]
    rfl
  · rw [Scopes.isBound_eq_true_iff]
    constructor
    · rintro ⟨value, looked⟩
      obtain ⟨scope, search⟩ := Scopes.lookup_eq_ok_iff.mp looked
      exact ⟨_, search⟩
    · rintro ⟨⟨scope, value⟩, search⟩
      exact ⟨value, Scopes.lookup_eq_ok_iff.mpr ⟨scope, search⟩⟩
  · rw [Scopes.isBound_eq_true_iff, Scopes.exists_assign_iff]
  · intro value later assigned
    obtain ⟨place, old, search, rfl⟩ := Scopes.assign_eq_ok_iff.mp assigned
    obtain ⟨frame, stored, bound⟩ := Scopes.has_of_find? search
    refine ⟨current, place, old, known, ?_, ?_, ?_, ?_, ?_⟩
    · rw [← Scopes.find?_eq_findFrom? known, search]
    · exact Scopes.lookup_eq_ok_iff.mpr ⟨_, search⟩
    · exact Scopes.binds_write place symbol value
    · exact Scopes.keys_write stored bound value
    · intro scope held other
      -- a write keeps the parents, so both searches go along the same scopes
      obtain ⟨found, before⟩ := Listing.exists_firstHit
        (Scopes.chainOf_failure sound.parents held) (Scopes.bindingOf other)
      refine ⟨found, before, ?_⟩
      rw [Scopes.findFrom?_write stored bound value scope other,
        show scopes.findFrom? scope other = .ok found from before]
      rfl

/-- Two scopes under the outermost one, which binds two symbols. The first of the two binds the
first symbol anew; the second binds the second symbol anew and is the current one. -/
def branched : List (Option Symbols × ScopeCall) :=
  let outermost : Handle := ⟨.scopes, 0, 0⟩
  [(none, .enter none), (none, .bind ⟨.symbols, 0, 1⟩ ⟨.objects, 5, 2⟩),
    (none, .bind ⟨.symbols, 1, 1⟩ ⟨.objects, 6, 2⟩), (none, .enter none),
    (none, .bind ⟨.symbols, 0, 1⟩ ⟨.objects, 7, 2⟩), (none, .enter (some outermost)),
    (none, .bind ⟨.symbols, 1, 1⟩ ⟨.objects, 8, 2⟩)]

/-- From the second scope the outermost binding is changed. The first scope, which is active too,
does not see it. -/
theorem assignment_changes_one_binding_of_branched :
    let scopes := (Scopes.initial 0).afterCalls branched
    let symbol : Handle := ⟨.symbols, 0, 1⟩
    scopes.active ≠ [] ∧ ∃ later,
      scopes.assign (Scopes.namingBy none) symbol ⟨.objects, 9, 2⟩ = .ok later ∧
      later.findFrom? (scopes.handleAt 2) symbol =
        .ok (some (scopes.handleAt 0, ⟨.objects, 9, 2⟩)) ∧
      later.findFrom? (scopes.handleAt 1) symbol =
        .ok (some (scopes.handleAt 1, ⟨.objects, 7, 2⟩)) ∧
      later.findFrom? (scopes.handleAt 2) ⟨.symbols, 1, 1⟩ =
        .ok (some (scopes.handleAt 2, ⟨.objects, 8, 2⟩)) := by
  intro scopes symbol
  have entered : scopes.active ≠ [] := by decide
  obtain ⟨-, -, assigns, effect⟩ :=
    assignment_changes_one_binding 0 branched entered (Scopes.namingBy none) symbol
  obtain ⟨later, assigned⟩ := (assigns ⟨.objects, 9, 2⟩).mpr rfl
  obtain ⟨current, i, old, known, search, -, -, -, seen⟩ := effect _ later assigned
  obtain rfl : current = scopes.handleAt 2 := (Except.ok.inj known).symm
  have here : scopes.handleAt i = scopes.handleAt 0 :=
    congrArg Prod.fst (Option.some.inj (Except.ok.inj search)).symm
  have sees (j : Nat) (below : j < 3) (other : Handle) {place bound : Handle}
      (before : scopes.findFrom? (scopes.handleAt j) other = .ok (some (place, bound))) :
      later.findFrom? (scopes.handleAt j) other = .ok (some (place,
        if other = symbol ∧ place = scopes.handleAt 0 then ⟨.objects, 9, 2⟩ else bound)) := by
    obtain ⟨found, same, after⟩ := seen (scopes.handleAt j) ⟨j, below, rfl⟩ other
    rw [before] at same
    cases same
    rw [after, here]
    rfl
  refine ⟨entered, later, assigned, ?_, ?_, ?_⟩
  · exact sees 2 (by decide) symbol rfl
  · exact sees 1 (by decide) symbol rfl
  · exact sees 2 (by decide) ⟨.symbols, 1, 1⟩ rfl

end ScopedLisp
