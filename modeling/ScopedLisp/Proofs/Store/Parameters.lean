import ScopedLisp.Proofs.Store.WellFormed

/-!
# Parameter lists that were checked

`Heap.Parameters` reads the symbols off a parameter list. A list that passes its check has such a
reading in which no symbol occurs twice, and the other walks along it, the one that counts the
parameters and the one that binds them, find the same symbols.
-/

namespace ScopedLisp

namespace Heap

/-- The parameters at a handle: symbols in a list, and behind them a symbol for the arguments that
are left over, if there is one. -/
inductive Parameters (heap : Heap) : Handle → List Handle → Option Handle → Prop where
  | none {h : Handle} (stored : heap.get h = .ok .nil) : Parameters heap h [] none
  | rest {h symbol : Handle} (stored : heap.get h = .ok (.symbol symbol)) :
      Parameters heap h [] (some symbol)
  | cons {h car cdr symbol : Handle} {required : List Handle} {rest : Option Handle}
      (link : heap.get h = .ok (.pair car cdr)) (named : heap.get car = .ok (.symbol symbol))
      (others : Parameters heap cdr required rest) : Parameters heap h (symbol :: required) rest

namespace Parameters

variable {heap : Heap} {h : Handle} {required : List Handle} {rest : Option Handle}

/-- The parameters are a chain of pairs, one for each symbol of the list. -/
theorem exists_chain (parameters : heap.Parameters h required rest) :
    ∃ cars last record, heap.Chain h cars last record ∧ cars.length = required.length ∧
      (record matches .symbol _) = rest.isSome := by
  induction parameters with
  | @none h stored => exact ⟨[], h, .nil, .last stored nofun, rfl, rfl⟩
  | @rest h symbol stored => exact ⟨[], h, .symbol symbol, .last stored nofun, rfl, rfl⟩
  | cons link named others ih =>
    obtain ⟨cars, last, record, chain, length, variadic⟩ := ih
    exact ⟨_ :: cars, last, record, .link link chain, congrArg Nat.succ length, variadic⟩

theorem length_lt_size (parameters : heap.Parameters h required rest) :
    required.length < heap.size := by
  obtain ⟨cars, last, record, chain, length, -⟩ := parameters.exists_chain
  rw [← length]
  exact chain.length_lt_size

/-- What is counted are the symbols of the list. -/
theorem parameterShape_eq (parameters : heap.Parameters h required rest) :
    heap.parameterShape h = .ok (required.length, rest.isSome) := by
  obtain ⟨cars, last, record, chain, length, variadic⟩ := parameters.exists_chain
  rw [chain.parameterShape_eq variadic, length]

/-- A handle has no more than one reading as parameters. -/
theorem unique {required' : List Handle} {rest' : Option Handle}
    (parameters : heap.Parameters h required rest)
    (parameters' : heap.Parameters h required' rest') : required = required' ∧ rest = rest' := by
  induction parameters generalizing required' with
  | none stored =>
    cases parameters' with
    | none _ => exact ⟨rfl, rfl⟩
    | rest stored' => cases stored.symm.trans stored'
    | cons link _ _ => cases stored.symm.trans link
  | rest stored =>
    cases parameters' with
    | none stored' => cases stored.symm.trans stored'
    | rest stored' =>
      cases stored.symm.trans stored'
      exact ⟨rfl, rfl⟩
    | cons link _ _ => cases stored.symm.trans link
  | cons link named others ih =>
    cases parameters' with
    | none stored => cases link.symm.trans stored
    | rest stored => cases link.symm.trans stored
    | cons link' named' others' =>
      cases link.symm.trans link'
      cases named.symm.trans named'
      obtain ⟨rfl, rfl⟩ := ih others'
      exact ⟨rfl, rfl⟩

end Parameters

/-- The handle behind the first `count` pairs. -/
def drop (heap : Heap) : Nat → Handle → Handle
  | 0, h => h
  | count + 1, h =>
    match heap.get h with
    | .ok (.pair _ cdr) => drop heap count cdr
    | _ => h

theorem drop_succ {heap : Heap} {h car cdr : Handle} (link : heap.get h = .ok (.pair car cdr))
    (count : Nat) : heap.drop (count + 1) h = heap.drop count cdr := by
  rw [drop, link]

theorem Chain.drop {heap : Heap} {h last : Handle} {cars : List Handle} {record : Record}
    (chain : heap.Chain h cars last record) {count : Nat} (enough : count ≤ cars.length) :
    heap.Chain (heap.drop count h) (cars.drop count) last record := by
  induction chain generalizing count with
  | last stored final =>
    obtain rfl := Nat.le_zero.mp enough
    exact .last stored final
  | link stored rest ih =>
    cases count with
    | zero => exact .link stored rest
    | succ count =>
      rw [drop_succ stored]
      exact ih (Nat.le_of_succ_le_succ enough)

theorem elements_drop {heap : Heap} {h : Handle} {items : List Handle}
    (listed : heap.elements h = .ok items) {count : Nat} (enough : count ≤ items.length) :
    heap.elements (heap.drop count h) = .ok (items.drop count) := by
  obtain ⟨last, chain⟩ := elements_eq_ok_iff.mp listed
  exact elements_eq_ok_iff.mpr ⟨last, chain.drop enough⟩

end Heap

namespace Store

variable {store : Store} {params : Handle} {form : String}

theorem not_mem_of_new {seen : List Handle} {symbol : Handle}
    (new : seen.contains symbol = false) : symbol ∉ seen :=
  fun member => Bool.false_ne_true (new.symm.trans (List.contains_iff_mem.mpr member))

/-- The check goes through the symbols and remembers them. -/
theorem parameters_of_checkParametersFrom {steps : Nat} {seen : List Handle}
    (passed : store.checkParametersFrom form steps seen params = .ok ()) :
    ∃ required rest, store.heap.Parameters params required rest ∧
      (required ++ rest.toList).Nodup ∧
      ∀ symbol ∈ required ++ rest.toList, symbol ∉ seen := by
  induction steps generalizing seen params with
  | zero => cases passed
  | succ steps ih =>
    obtain ⟨record, stored, passed⟩ := exists_of_bind_ok passed
    cases record with
    | nil => exact ⟨[], none, .none stored, List.nodup_nil, List.forall_mem_nil _⟩
    | symbol symbol =>
      have new := requireNew_eq_ok_iff.mp passed
      refine ⟨[], some symbol, .rest stored, List.nodup_singleton symbol, ?_⟩
      exact List.forall_mem_singleton.mpr (not_mem_of_new new)
    | pair car cdr =>
      obtain ⟨parameter, named, passed⟩ := exists_of_bind_ok passed
      cases parameter with
      | symbol symbol =>
        obtain ⟨_, new, passed⟩ := exists_of_bind_ok passed
        obtain ⟨required, rest, others, nodup, fresh⟩ := ih passed
        have own := not_mem_of_new (requireNew_eq_ok_iff.mp new)
        -- what comes behind the symbol is not the symbol, which is remembered by then
        have later : symbol ∉ required ++ rest.toList :=
          fun again => fresh symbol again List.mem_cons_self
        refine ⟨symbol :: required, rest, .cons stored named others,
          List.nodup_cons.mpr ⟨later, nodup⟩, List.forall_mem_cons.mpr ⟨own, ?_⟩⟩
        exact fun other member before => fresh other member (List.mem_cons_of_mem symbol before)
      | _ => exact absurd passed (bind_throw_ne_ok _ _ _)
    | _ => exact absurd passed (bind_throw_ne_ok _ _ _)

theorem parameters_of_checkParameters (passed : store.checkParameters form params = .ok ()) :
    ∃ required rest, store.heap.Parameters params required rest ∧
      (required ++ rest.toList).Nodup := by
  obtain ⟨required, rest, parameters, nodup, -⟩ := parameters_of_checkParametersFrom passed
  exact ⟨required, rest, parameters, nodup⟩

theorem WellFormed.checkParameters_of_procedure (wf : store.WellFormed) {h body scope : Handle}
    (stored : store.heap.get h = .ok (.procedure params body scope)) (form : String) :
    store.checkParameters form params = .ok () := by
  obtain ⟨i, -, -, below⟩ := wf.refers_of_get stored
  exact below.2.2 form

end Store

end ScopedLisp
