/-!
# Association lists

Finite maps that remember the order in which their keys were first written. Writing to a key
that is present keeps its place.
-/

namespace ScopedLisp

/-- Keys and their values in the order of the first write to each key. -/
abbrev Assoc (κ ν : Type) := List (κ × ν)

namespace Assoc

variable {κ ν : Type} [DecidableEq κ]

/-- The value at `key`. -/
def get? : Assoc κ ν → κ → Option ν
  | [], _ => none
  | (k, v) :: rest, key => if k = key then some v else get? rest key

def has (entries : Assoc κ ν) (key : κ) : Bool := (entries.get? key).isSome

/-- Writes `value` at `key`, in place or at the end. -/
def put : Assoc κ ν → κ → ν → Assoc κ ν
  | [], key, value => [(key, value)]
  | (k, v) :: rest, key, value =>
    if k = key then (k, value) :: rest else (k, v) :: put rest key value

/-- Removes `key`. -/
def remove (entries : Assoc κ ν) (key : κ) : Assoc κ ν := entries.filter (·.1 ≠ key)

def keys (entries : Assoc κ ν) : List κ := entries.map (·.1)

/-- The map that results from writing the entries one after another. -/
def ofList (entries : List (κ × ν)) : Assoc κ ν := entries.foldl (fun m (k, v) => put m k v) []

theorem get?_put (entries : Assoc κ ν) (key other : κ) (value : ν) :
    (entries.put key value).get? other =
      if key = other then some value else entries.get? other := by
  induction entries with
  | nil => simp [put, get?]
  | cons entry rest ih =>
    obtain ⟨k, v⟩ := entry
    by_cases same : k = key
    · subst same
      by_cases hit : k = other <;> simp [put, get?, hit]
    · by_cases hit : k = other
      · subst hit
        simp [put, get?, same, Ne.symm same]
      · simp [put, get?, same, hit, ih]

theorem has_put (entries : Assoc κ ν) (key other : κ) (value : ν) :
    (entries.put key value).has other = (decide (key = other) || entries.has other) := by
  rw [has, get?_put]
  by_cases same : key = other <;> simp [same, has]

/-- A write adds its key at the end if the key is new and leaves the keys alone otherwise. -/
theorem keys_put (entries : Assoc κ ν) (key : κ) (value : ν) :
    (entries.put key value).keys =
      if entries.has key then entries.keys else entries.keys ++ [key] := by
  induction entries with
  | nil => simp [put, keys, has, get?]
  | cons entry rest ih =>
    obtain ⟨k, v⟩ := entry
    by_cases same : k = key
    · simp [put, keys, has, get?, same]
    · have step : has ((k, v) :: rest) key = has rest key := by simp [has, get?, same]
      rw [step]
      simp only [put, if_neg same]
      simp only [keys, List.map_cons] at ih ⊢
      rw [ih]
      split <;> simp

end Assoc

end ScopedLisp
