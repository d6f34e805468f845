import ScopedLisp.Proofs.Eval.Reading

/-!
# The work of the printer

The printer takes one piece after another from a list and puts the pieces of an object in the place
of the object. `Writes` is this work without the depths that the pieces carry: it tells what is
written if the work comes to an end at all. Where the printer does not run out of depth it has come
to that end.
-/

namespace ScopedLisp

/-- A piece without its depth: a text that is written as it is, or an object. -/
def Piece.bare : Piece → String ⊕ Handle
  | .plain text => .inl text
  | .object _ h => .inr h

/-- The pieces of a layout without their depths. -/
def Layout.bare (layout : Layout) : List (String ⊕ Handle) := (layout.pieces 0).map Piece.bare

theorem Layout.map_bare_pieces (layout : Layout) (room : Nat) :
    (layout.pieces room).map Piece.bare = layout.bare := by
  cases layout with
  | list first rest tail =>
    cases tail <;> simp only [bare, pieces, List.map_append, List.map_cons, List.map_flatMap,
      List.map_nil, Piece.bare]
  | _ => rfl

namespace Store

variable {store : Store} {h : Handle}

theorem writeFrom_plain (text : String) (rest : List Piece) (written : String) :
    store.writeFrom (.plain text :: rest) written = store.writeFrom rest (written ++ text) := by
  rw [writeFrom]

theorem writeFrom_eq (store : Store) (room : Nat) (h : Handle) (rest : List Piece)
    (written : String) :
    store.writeFrom (.object (room + 1) h :: rest) written =
      match store.layout h with
      | .error failure => .error failure
      | .ok layout => store.writeFrom (layout.pieces room ++ rest) written := by
  rw [writeFrom]
  split <;> simp only [*]

theorem writeFrom_object {layout : Layout} (found : store.layout h = .ok layout) (room : Nat)
    (rest : List Piece) (written : String) :
    store.writeFrom (.object (room + 1) h :: rest) written =
      store.writeFrom (layout.pieces room ++ rest) written := by
  rw [writeFrom_eq, found]

/-- The pieces of a list in the order in which they are written. -/
theorem pieces_list (room : Nat) (car : Handle) (cars : List Handle) (tail : Option Handle)
    (rest : List Piece) :
    (Layout.list car cars tail).pieces room ++ rest =
      .plain "(" :: .object room car ::
        (cars.flatMap (fun item => [.plain " ", .object room item]) ++
          ((match tail with
            | some last => [.plain " . ", .object room last]
            | none => []) ++ .plain ")" :: rest)) := by
  cases tail <;> simp only [Layout.pieces, List.cons_append, List.append_assoc, List.nil_append]

/-- Working through the list comes to an end with this result. -/
inductive Writes (store : Store) : List (String ⊕ Handle) → String → Except Failure String → Prop
    where
  | done (written : String) : Writes store [] written (.ok written)
  | plain {text : String} {rest : List (String ⊕ Handle)} {written : String}
      {result : Except Failure String} (others : Writes store rest (written ++ text) result) :
      Writes store (.inl text :: rest) written result
  | object {h : Handle} {rest : List (String ⊕ Handle)} {written : String}
      {result : Except Failure String} {layout : Layout} (found : store.layout h = .ok layout)
      (others : Writes store (layout.bare ++ rest) written result) :
      Writes store (.inr h :: rest) written result
  | refused {h : Handle} {rest : List (String ⊕ Handle)} {written : String} {failure : Failure}
      (missing : store.layout h = .error failure) :
      Writes store (.inr h :: rest) written (.error failure)

theorem writes_of_writeFrom {pending : List Piece} {written : String}
    (ends : store.writeFrom pending written ≠ .error .endlessWalk) :
    store.Writes (pending.map Piece.bare) written (store.writeFrom pending written) := by
  fun_induction store.writeFrom pending written with
  | case1 written => exact .done written
  | case2 written text rest ih => exact .plain (ih ends)
  | case3 => exact absurd rfl ends
  | case4 written room h rest failure missing => exact .refused missing
  | case5 written room h rest layout found ih =>
    have others := ih ends
    rw [List.map_append, layout.map_bare_pieces] at others
    exact .object found others

end Store

end ScopedLisp
