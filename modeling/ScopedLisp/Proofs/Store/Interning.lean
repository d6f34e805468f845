import Mathlib.Data.Finset.Card
import Mathlib.Data.Finset.Filter
import ScopedLisp.Proofs.Store.Grounded

/-!
# Interning

The handle of a name is its place among the names of the table. New names come behind the others,
so a place is given once, at the first call for its name, and every later call finds it again. In a
table that was new when the calls began, a name stands behind the different names that were called
for before it; no place is left out, and no handle but those of the places has a name.
-/

namespace ScopedLisp.Symbols

variable {symbols : Symbols} {name other : String} {h : Handle}

/-! ### One name -/

/-- The handle of the place at which a name stands. The place of a name that is not in the table is
behind the others. -/
def handleOf (symbols : Symbols) (name : String) : Handle :=
  symbols.handleAt (symbols.names.idxOf name)

theorem intern_eq (symbols : Symbols) (name : String) :
    symbols.intern name =
      ({ symbols with
          names := if symbols.has name then symbols.names else symbols.names ++ [name] },
        symbols.handleOf name) := by
  unfold intern has
  rw [handleOf, List.idxOf_eq_getD_idxOf?]
  cases found : symbols.names.idxOf? name with
  | some i =>
    obtain ⟨inside, same, -⟩ := List.idxOf?_eq_some_iff.mp found
    have member : name ∈ symbols.names := same ▸ List.getElem_mem inside
    rw [if_pos (List.contains_iff_mem.mpr member)]
    rfl
  | none =>
    rw [List.idxOf?_eq_none_iff] at found
    rw [if_neg (mt List.contains_iff_mem.mp found)]
    rfl

theorem names_intern (symbols : Symbols) (name : String) :
    (symbols.intern name).1.names =
      if symbols.has name then symbols.names else symbols.names ++ [name] := by
  rw [intern_eq]

theorem mem_intern :
    other ∈ (symbols.intern name).1.names ↔ other ∈ symbols.names ∨ other = name := by
  rw [names_intern, has]
  split
  · next known =>
    rw [or_iff_left_of_imp]
    rintro rfl
    exact List.contains_iff_mem.mp known
  · rw [List.mem_append, List.mem_singleton]

theorem nodup_intern (nodup : symbols.names.Nodup) (name : String) :
    (symbols.intern name).1.names.Nodup := by
  rw [names_intern, has]
  split
  · exact nodup
  · next new =>
    rw [List.contains_iff_mem] at new
    rw [← List.concat_eq_append]
    exact nodup.concat new

/-- A call for a name of the table leaves the table alone. -/
theorem intern_of_mem (known : name ∈ symbols.names) :
    symbols.intern name = (symbols, symbols.handleOf name) := by
  rw [intern_eq, has, if_pos (List.contains_iff_mem.mpr known)]

/-- The handle that is returned for a name is its place in the table that is left. -/
theorem handleOf_intern (symbols : Symbols) (name : String) :
    (symbols.intern name).1.handleOf name = (symbols.intern name).2 := by
  by_cases known : name ∈ symbols.names
  · rw [intern_of_mem known]
  · have last : (symbols.names ++ [name]).idxOf name = symbols.names.idxOf name := by
      rw [List.idxOf_append_of_notMem known, List.idxOf_cons_self, List.idxOf_of_notMem known,
        Nat.add_zero]
    rw [intern_eq, has, if_neg (mt List.contains_iff_mem.mp known), handleOf, last]
    rfl

theorem name_intern (symbols : Symbols) (name : String) :
    (symbols.intern name).1.name (symbols.intern name).2 = .ok name := by
  have entered : name ∈ (symbols.intern name).1.names := mem_intern.mpr (.inr rfl)
  rw [← handleOf_intern, name_eq_ok_iff]
  exact ⟨_, rfl, List.getElem?_idxOf entered⟩

/-- Different names have different handles. -/
theorem handleOf_inj (known : name ∈ symbols.names) :
    symbols.handleOf name = symbols.handleOf other ↔ name = other := by
  simp only [handleOf, handleAt, Handle.mk.injEq, Int.natCast_inj, true_and, and_true]
  exact List.idxOf_inj known

/-- Where no name stands twice, each has one handle. -/
theorem name_eq_ok_iff_handleOf (nodup : symbols.names.Nodup) :
    symbols.name h = .ok name ↔ name ∈ symbols.names ∧ h = symbols.handleOf name := by
  rw [name_eq_ok_iff]
  constructor
  · rintro ⟨i, same, inside⟩
    obtain ⟨below, rfl⟩ := List.getElem?_eq_some_iff.mp inside
    refine ⟨List.getElem_mem below, ?_⟩
    rw [handleOf, nodup.idxOf_getElem i below]
    exact same
  · rintro ⟨known, same⟩
    exact ⟨symbols.names.idxOf name, same, List.getElem?_idxOf known⟩

theorem issued_of_name (known : symbols.name h = .ok name) :
    h.IssuedBefore .symbols symbols.owner symbols.size :=
  exists_name_iff.mp ⟨name, known⟩

theorem name_eq_error (nameless : ∀ name, symbols.name h ≠ .ok name) :
    symbols.name h = .error (.unknownHandle h .symbols) := by
  unfold Symbols.name at nameless ⊢
  split
  · next i found =>
    rw [found] at nameless
    exact absurd rfl (nameless _)
  · rfl

/-! ### Several names -/

/-- The table after the names have been interned one after another. -/
def internAll (symbols : Symbols) (names : List String) : Symbols :=
  names.foldl (fun symbols name => (symbols.intern name).1) symbols

theorem internAll_append (symbols : Symbols) (names more : List String) :
    symbols.internAll (names ++ more) = (symbols.internAll names).internAll more :=
  List.foldl_append

/-- Names that are new come behind the others, each where it occurs first. -/
theorem names_internAll (symbols : Symbols) (names : List String) :
    (symbols.internAll names).names =
      symbols.names ++ (names.filter (!symbols.has ·)).eraseDups := by
  induction names generalizing symbols with
  | nil => exact (List.append_nil _).symm
  | cons name rest ih =>
    have step := symbols.names_intern name
    rw [internAll, List.foldl_cons, ← internAll, ih]
    cases known : symbols.has name with
    | true =>
      rw [known, if_pos rfl] at step
      have same (other : String) : (symbols.intern name).1.has other = symbols.has other := by
        rw [has, has, step]
      rw [step, List.filter_cons_of_neg (by rw [known]; decide)]
      simp only [same]
    | false =>
      rw [known, if_neg Bool.false_ne_true] at step
      have also (other : String) :
          (!(symbols.intern name).1.has other) = (!(other == name) && !symbols.has other) := by
        rw [has, has, step, List.contains_append, Bool.not_or, Bool.and_comm]
        simp only [List.contains_cons, List.contains_nil, Bool.or_false]
      rw [step, List.filter_cons_of_pos (by rw [known]; rfl), List.eraseDups_cons,
        List.filter_filter, List.append_assoc, List.singleton_append]
      simp only [also]

theorem owner_internAll (symbols : Symbols) (names : List String) :
    (symbols.internAll names).owner = symbols.owner := by
  induction names generalizing symbols with
  | nil => rfl
  | cons name rest ih =>
    have step : (symbols.intern name).1.owner = symbols.owner := by rw [intern_eq]
    exact (ih (symbols.intern name).1).trans step

theorem mem_internAll {names : List String} :
    name ∈ (symbols.internAll names).names ↔ name ∈ symbols.names ∨ name ∈ names := by
  induction names generalizing symbols with
  | nil => simp only [internAll, List.foldl_nil, List.not_mem_nil, or_false]
  | cons next rest ih =>
    rw [internAll, List.foldl_cons, ← internAll, ih, mem_intern, List.mem_cons, or_assoc]

theorem nodup_internAll (nodup : symbols.names.Nodup) (names : List String) :
    (symbols.internAll names).names.Nodup := by
  induction names generalizing symbols with
  | nil => exact nodup
  | cons name rest ih => exact ih (nodup_intern nodup name)

/-- The place of a name stays what it is. -/
theorem handleOf_internAll (known : name ∈ symbols.names) (names : List String) :
    (symbols.internAll names).handleOf name = symbols.handleOf name := by
  have grown : symbols.names <+: (symbols.internAll names).names :=
    ⟨_, (symbols.names_internAll names).symm⟩
  rw [handleOf, handleOf, handleAt, handleAt, owner_internAll, grown.idxOf_eq_of_mem known]

/-- The names with the handles that are returned when they are interned one after another. -/
def interned (symbols : Symbols) : List String → List (String × Handle)
  | [] => []
  | name :: rest => (name, (symbols.intern name).2) :: interned (symbols.intern name).1 rest

/-- At every call for a name its place in the table that is left at the end is returned. -/
theorem interned_eq (symbols : Symbols) (names : List String) :
    symbols.interned names =
      names.map fun name => (name, (symbols.internAll names).handleOf name) := by
  induction names generalizing symbols with
  | nil => rfl
  | cons name rest ih =>
    have entered : name ∈ (symbols.intern name).1.names := mem_intern.mpr (.inr rfl)
    have kept := handleOf_internAll entered rest
    rw [handleOf_intern] at kept
    rw [interned, ih, ← kept]
    rfl

theorem mem_interned {names : List String} :
    (name, h) ∈ symbols.interned names ↔
      name ∈ names ∧ h = (symbols.internAll names).handleOf name := by
  rw [interned_eq, List.mem_map]
  constructor
  · rintro ⟨_, member, same⟩
    cases same
    exact ⟨member, rfl⟩
  · rintro ⟨member, rfl⟩
    exact ⟨name, member, rfl⟩

/-! ### New tables -/

/-- The names that are called for before the first call for `name`. -/
def namesBefore (calls : List String) (name : String) : Finset String :=
  calls.toFinset.filter fun other => calls.idxOf other < calls.idxOf name

theorem namesBefore_append {before after : List String} (new : name ∉ before) :
    namesBefore (before ++ name :: after) name = before.toFinset := by
  have place : (before ++ name :: after).idxOf name = before.length := by
    rw [List.idxOf_append_of_notMem new, List.idxOf_cons_self, Nat.add_zero]
  ext other
  rw [namesBefore, place, Finset.mem_filter, List.mem_toFinset, List.mem_toFinset]
  constructor
  · rintro ⟨-, early⟩
    by_contra late
    rw [List.idxOf_append_of_notMem late] at early
    exact Nat.not_lt.mpr (Nat.le_add_right _ _) early
  · intro early
    refine ⟨List.mem_append_left _ early, ?_⟩
    rw [List.idxOf_append_of_mem early]
    exact List.idxOf_lt_length_iff.mpr early

section

variable (owner : Nat) {calls : List String}

theorem mem_internAll_initial : name ∈ ((initial owner).internAll calls).names ↔ name ∈ calls := by
  rw [mem_internAll]
  exact or_iff_right List.not_mem_nil

theorem nodup_internAll_initial (calls : List String) :
    ((initial owner).internAll calls).names.Nodup :=
  nodup_internAll List.nodup_nil calls

/-- A table has as many places as there are different names. -/
theorem size_internAll_initial (calls : List String) :
    ((initial owner).internAll calls).size = calls.toFinset.card := by
  have same : ((initial owner).internAll calls).names.toFinset = calls.toFinset := by
    ext name
    rw [List.mem_toFinset, List.mem_toFinset, mem_internAll_initial]
  rw [← same, List.toFinset_card_of_nodup (nodup_internAll_initial owner calls)]
  rfl

/-- A name stands behind the different names that came before it. -/
theorem handleOf_internAll_initial (called : name ∈ calls) :
    ((initial owner).internAll calls).handleOf name =
      ⟨.symbols, (namesBefore calls name).card, owner⟩ := by
  obtain ⟨before, after, rfl, new⟩ := List.eq_append_cons_of_mem called
  let table := (initial owner).internAll before
  have entered : name ∈ (table.intern name).1.names := mem_intern.mpr (.inr rfl)
  have absent : name ∉ table.names := mt (mem_internAll_initial owner).mp new
  calc ((initial owner).internAll (before ++ name :: after)).handleOf name
    _ = ((table.intern name).1.internAll after).handleOf name := by rw [internAll_append]; rfl
    _ = table.handleOf name := by rw [handleOf_internAll entered, handleOf_intern, intern_eq]
    _ = ⟨.symbols, table.size, table.owner⟩ := by
      rw [handleOf, List.idxOf_of_notMem absent]
      rfl
    _ = ⟨.symbols, (namesBefore (before ++ name :: after) name).card, owner⟩ := by
      rw [namesBefore_append new, size_internAll_initial, owner_internAll]
      rfl

/-- A handle has a name just if it was returned for this name. -/
theorem name_internAll_initial :
    ((initial owner).internAll calls).name h = .ok name ↔
      (name, h) ∈ (initial owner).interned calls := by
  rw [name_eq_ok_iff_handleOf (nodup_internAll_initial owner calls), mem_internAll_initial,
    mem_interned]

end

/-- Interning is a stable bijection between the names that are called for and the first handles of
a new table.

Whatever names are called for, in whatever order and however often, a name is given the number of
different names that were first called for before it, so two calls return the same handle just if
they are for the same name. After any further calls, one more call for the name returns its handle
again and leaves the table alone, and the handle still has its name. A handle has a name just if it
was returned for this name, and one that was never returned is unknown. Never returned are the
handles of another kind or owner and those whose index is negative or out of range. -/
theorem handles_stand_for_names (owner : Nat) (calls : List String) :
    let table := (initial owner).internAll calls
    let answers := (initial owner).interned calls
    let returned := answers.map Prod.snd
    answers = calls.map (fun name =>
      (name, ⟨.symbols, (namesBefore calls name).card, owner⟩)) ∧
    (∀ answer ∈ answers, ∀ other ∈ answers, answer.2 = other.2 ↔ answer.1 = other.1) ∧
    (∀ more, ∀ answer ∈ answers,
      (table.internAll more).intern answer.1 = (table.internAll more, answer.2) ∧
      (table.internAll more).name answer.2 = .ok answer.1) ∧
    (∀ h name, table.name h = .ok name ↔ (name, h) ∈ answers) ∧
    (∀ h ∉ returned, table.name h = .error (.unknownHandle h .symbols)) ∧
    ∀ h : Handle, h ∉ returned ↔
      h.table ≠ .symbols ∨ h.owner ≠ owner ∨ h.index < 0 ∨ calls.toFinset.card ≤ h.index := by
  intro table answers returned
  have named (h : Handle) (name : String) : table.name h = .ok name ↔ (name, h) ∈ answers :=
    name_internAll_initial owner
  have mem_returned (h : Handle) : h ∈ returned ↔ ∃ name, table.name h = .ok name := by
    simp only [returned, named, List.mem_map, Prod.exists, exists_eq_right]
  refine ⟨?_, ?_, ?_, named, ?_, ?_⟩
  · refine (interned_eq _ calls).trans (List.map_congr_left fun name called => ?_)
    rw [handleOf_internAll_initial owner called]
  · rintro ⟨name, h⟩ answer ⟨other, h'⟩ answer'
    obtain ⟨called, rfl⟩ := mem_interned.mp answer
    obtain ⟨-, rfl⟩ := mem_interned.mp answer'
    exact handleOf_inj ((mem_internAll_initial owner).mpr called)
  · rintro more ⟨name, h⟩ answer
    obtain ⟨called, rfl⟩ := mem_interned.mp answer
    have known : name ∈ table.names := (mem_internAll_initial owner).mpr called
    have later : name ∈ (table.internAll more).names := mem_internAll.mpr (.inl known)
    have kept : (table.internAll more).handleOf name = table.handleOf name :=
      handleOf_internAll known more
    have nodup := nodup_internAll (nodup_internAll_initial owner calls) more
    refine ⟨?_, (name_eq_ok_iff_handleOf nodup).mpr ⟨later, kept.symm⟩⟩
    rw [intern_of_mem later, kept]
  · intro h unreturned
    exact name_eq_error fun name known => unreturned ((mem_returned h).mpr ⟨name, known⟩)
  · intro h
    rw [mem_returned, exists_name_iff, size_internAll_initial, owner_internAll,
      Handle.not_issuedBefore_iff]
    rfl

/-- A name that is called for twice, another call for a name after a new one, and handles that were
not returned. -/
theorem handles_stand_for_names_of_repeated :
    let table := (initial 3).internAll ["x", "y", "x"]
    (initial 3).interned ["x", "y", "x"] =
      [("x", ⟨.symbols, 0, 3⟩), ("y", ⟨.symbols, 1, 3⟩), ("x", ⟨.symbols, 0, 3⟩)] ∧
    (table.internAll ["z"]).intern "y" = (table.internAll ["z"], ⟨.symbols, 1, 3⟩) ∧
    (table.internAll ["z"]).name ⟨.symbols, 1, 3⟩ = .ok "y" ∧
    ∀ h ∈ ([⟨.texts, 0, 3⟩, ⟨.symbols, 0, 4⟩, ⟨.symbols, -1, 3⟩, ⟨.symbols, 2, 3⟩] : List Handle),
      table.name h = .error (.unknownHandle h .symbols) := by
  intro table
  obtain ⟨numbered, -, later, -, unknown, unreturned⟩ :=
    handles_stand_for_names 3 ["x", "y", "x"]
  have second := later ["z"] ("y", ⟨.symbols, 1, 3⟩) (by decide)
  refine ⟨numbered.trans rfl, second.1, second.2, fun h outside => unknown h ?_⟩
  rw [unreturned]
  revert h
  decide

end ScopedLisp.Symbols
