import ScopedLisp.Failure

/-!
# Listings

An enumeration that may be cut short: the items that were delivered and the failure that ended
it, if any. Readers of a listing see the items before the failure.
-/

namespace ScopedLisp

structure Listing (α : Type) where
  items : List α
  failure : Option Failure
  deriving DecidableEq, Repr

namespace Listing

variable {α : Type}

/-- The listing of nothing. -/
def empty : Listing α := ⟨[], none⟩

/-- The listing that fails at once. -/
def failed (failure : Failure) : Listing α := ⟨[], some failure⟩

/-- One more item in front. -/
def cons (item : α) (rest : Listing α) : Listing α := { rest with items := item :: rest.items }

/-- All items, if the listing was not cut short. -/
def all (listing : Listing α) : Except Failure (List α) :=
  match listing.failure with
  | none => .ok listing.items
  | some failure => .error failure

theorem all_eq_ok_iff {listing : Listing α} {items : List α} :
    listing.all = .ok items ↔ listing = ⟨items, none⟩ := by
  obtain ⟨delivered, failure⟩ := listing
  cases failure <;> simp [all]

end Listing

end ScopedLisp
