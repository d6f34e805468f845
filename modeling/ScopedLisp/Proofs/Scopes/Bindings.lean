import ScopedLisp.Proofs.Scopes.Search

/-!
# Several bindings in one frame

Bindings that are written one after another into one frame. If they are of different symbols, each
symbol stands for its own value in the end, whatever the order in which they were written, and the
scopes are otherwise as before.
-/

namespace ScopedLisp

namespace Assoc

variable {κ ν : Type} [DecidableEq κ]

/-- The map after the entries have been written one after another. -/
def putAll (entries : Assoc κ ν) (more : List (κ × ν)) : Assoc κ ν :=
  more.foldl (fun written entry => written.put entry.1 entry.2) entries

theorem get?_putAll_of_not_mem {more : Assoc κ ν} {key : κ} (other : key ∉ more.keys)
    (entries : Assoc κ ν) : (entries.putAll more).get? key = entries.get? key := by
  induction more generalizing entries with
  | nil => rfl
  | cons entry rest ih =>
    obtain ⟨differs, further⟩ := List.ne_and_not_mem_of_not_mem_cons other
    have later := ih further (entries.put entry.1 entry.2)
    rw [get?_put, if_neg (Ne.symm differs)] at later
    exact later

theorem get?_putAll_of_mem {more : Assoc κ ν} (nodup : more.keys.Nodup) {entry : κ × ν}
    (member : entry ∈ more) (entries : Assoc κ ν) :
    (entries.putAll more).get? entry.1 = some entry.2 := by
  induction more generalizing entries with
  | nil => cases member
  | cons first rest ih =>
    obtain ⟨once, nodup⟩ := List.nodup_cons.mp nodup
    rcases List.mem_cons.mp member with rfl | member
    · -- nothing behind it is written at the same key
      have kept := get?_putAll_of_not_mem once (entries.put entry.1 entry.2)
      rw [get?_put, if_pos rfl] at kept
      exact kept
    · exact ih nodup member (entries.put first.1 first.2)

/-- A new key is written at the end. -/
theorem put_of_not_mem {entries : Assoc κ ν} {key : κ} (new : key ∉ entries.keys) (value : ν) :
    entries.put key value = entries ++ [(key, value)] := by
  induction entries with
  | nil => rfl
  | cons entry rest ih =>
    obtain ⟨differs, further⟩ := List.ne_and_not_mem_of_not_mem_cons new
    rw [put, if_neg (Ne.symm differs), ih further, List.cons_append]

theorem putAll_eq_append {entries more : Assoc κ ν} (nodup : (entries.keys ++ more.keys).Nodup) :
    entries.putAll more = entries ++ more := by
  induction more generalizing entries with
  | nil => exact (List.append_nil entries).symm
  | cons entry rest ih =>
    have apart : entries.keys ++ keys (entry :: rest) =
        keys (entries ++ [entry]) ++ keys rest := by
      simp only [keys, List.map_cons, List.map_append, List.map_nil, List.append_assoc,
        List.singleton_append]
    have new : entry.1 ∉ entries.keys := fun known =>
      (List.nodup_append.mp nodup).2.2 entry.1 known entry.1 List.mem_cons_self rfl
    have rest_written := ih (apart ▸ nodup)
    rw [List.append_assoc, List.singleton_append, ← put_of_not_mem new entry.2] at rest_written
    exact rest_written

end Assoc

namespace Scopes

/-- The scopes after the bindings have been written one after another into the frame at `i`. -/
def writeAll (scopes : Scopes) (i : Nat) (bindings : List (Handle × Handle)) : Scopes :=
  { scopes with
    frames := scopes.frames.modify i fun frame =>
      { frame with bindings := frame.bindings.putAll bindings } }

/-- The scopes `after` are those of before, except that in the frame at `i` the symbols of the
bindings stand for what they are bound to. -/
structure Binds (before after : Scopes) (i : Nat) (bindings : Assoc Handle Handle) : Prop where
  owner : after.owner = before.owner
  active : after.active = before.active
  others : ∀ j, j ≠ i → after.frames[j]? = before.frames[j]?
  frame : ∃ frame bound, before.frames[i]? = some frame ∧
    after.frames[i]? = some { frame with bindings := bound } ∧
    (∀ binding ∈ bindings, bound.get? binding.1 = some binding.2) ∧
    ∀ symbol, symbol ∉ bindings.keys → bound.get? symbol = frame.bindings.get? symbol

variable {scopes : Scopes}

theorem binds_writeAll (place : Fin scopes.frames.size) {bindings : Assoc Handle Handle}
    (nodup : bindings.keys.Nodup) :
    scopes.Binds (scopes.writeAll place bindings) place bindings := by
  have inside := Array.getElem?_eq_getElem place.isLt
  refine ⟨rfl, rfl, ?_, _, scopes.frames[place].bindings.putAll bindings, inside, ?_, ?_, ?_⟩
  · intro j other
    rw [writeAll, Array.getElem?_modify, if_neg other.symm]
  · rw [writeAll, Array.getElem?_modify, if_pos rfl, inside]
    rfl
  · exact fun binding member => Assoc.get?_putAll_of_mem nodup member _
  · exact fun symbol other => Assoc.get?_putAll_of_not_mem other _

theorem writeAll_nil (scopes : Scopes) (i : Nat) : scopes.writeAll i [] = scopes := by
  have same : scopes.frames.modify i id = scopes.frames := by
    apply Array.ext_getElem?
    intro j
    rw [Array.getElem?_modify, Option.map_id, id, ite_self]
  exact congrArg (fun frames => { scopes with frames }) same

theorem writeAll_write (place : Fin scopes.frames.size) (symbol value : Handle)
    (bindings : List (Handle × Handle)) :
    (scopes.write place symbol value).writeAll place bindings =
      scopes.writeAll place ((symbol, value) :: bindings) := by
  have same : ((scopes.write place symbol value).writeAll place bindings).frames =
      (scopes.writeAll place ((symbol, value) :: bindings)).frames := by
    apply Array.ext_getElem?
    intro j
    simp only [writeAll, write, Array.getElem?_modify]
    split
    · rw [Option.map_map]
      rfl
    · rfl
  exact congrArg (fun frames => { scopes with frames }) same

/-- The current scope is where it was before a write. -/
theorem currentPlace_write {place : Fin scopes.frames.size}
    (current : scopes.currentPlace = .ok place) (symbol value : Handle) :
    ∃ there : Fin (scopes.write place symbol value).frames.size, there.val = place.val ∧
      (scopes.write place symbol value).currentPlace = .ok there := by
  have size : (scopes.write place symbol value).frames.size = scopes.frames.size :=
    Array.size_modify
  refine ⟨place.cast size.symm, rfl, ?_⟩
  have known : (scopes.write place symbol value).current = .ok (scopes.handleAt place) :=
    currentPlace_eq_ok current
  rw [currentPlace, ok_bind known]
  exact position_eq_ok_iff.mpr rfl

end Scopes

end ScopedLisp
