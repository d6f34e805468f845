/-!
# Handles

Objects, symbols, texts and scopes are named by handles: an index together with the table that
issued it. A handle is never an address, and a table recognises only its own handles: those of
its kind, of its owner and within its size. A handle can be shown whatever its index is: tables
issue no index that comes near the digit limit of numerals, and a forged one is shown in full.
-/

namespace ScopedLisp

/-- The kinds of table that issue handles. -/
inductive Table where
  | objects | symbols | texts | scopes
  deriving DecidableEq, Repr

/-- What a handle of the table is called when it is shown. -/
def Table.handleName : Table → String
  | .objects => "ObjectHandle"
  | .symbols => "SymbolHandle"
  | .texts => "StringHandle"
  | .scopes => "ScopeHandle"

/-- What the table is called in a message about a handle it did not issue. -/
def Table.title : Table → String
  | .objects => "arena"
  | .symbols => "symbol table"
  | .texts => "string table"
  | .scopes => "environment"

/-- A reference to the entry at `index` of the table of kind `table` that belongs to `owner`.
The index is an integer because a reference may also come from outside. -/
structure Handle where
  table : Table
  index : Int
  owner : Nat
  deriving DecidableEq, Repr

namespace Handle

/-- The handle as text. The owner is not shown. -/
def display (h : Handle) : String := s!"{h.table.handleName}({h.index})"

/-- The position that the handle names in a table of the given kind, owner and size. -/
def position? (table : Table) (owner size : Nat) (h : Handle) : Option (Fin size) :=
  if fits : h.table = table ∧ h.owner = owner ∧ 0 ≤ h.index ∧ h.index < size then
    some ⟨h.index.toNat, by omega⟩
  else none

theorem position?_eq_some_iff {table : Table} {owner size : Nat} {h : Handle} {i : Fin size} :
    position? table owner size h = some i ↔ h = ⟨table, i, owner⟩ := by
  obtain ⟨kind, index, issuer⟩ := h
  constructor
  · intro found
    simp only [position?] at found
    split at found
    · next fits =>
      cases found
      obtain ⟨rfl, rfl, lower, _⟩ := fits
      simp only [Handle.mk.injEq, true_and, and_true]
      omega
    · cases found
  · intro same
    cases same
    have bound := i.isLt
    simp only [position?]
    rw [dif_pos ⟨trivial, trivial, by omega, by omega⟩]
    simp

end Handle

end ScopedLisp
