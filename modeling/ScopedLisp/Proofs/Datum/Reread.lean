import ScopedLisp.Proofs.Datum.RoundTrip
import ScopedLisp.Proofs.Datum.Seam
import ScopedLisp.Proofs.Token.Complete

/-!
# Printing what was read

Every datum that is read from a source is readable: each of its atoms is a symbol wherever it is cut
off, or the bare mark of a character. So the text that is printed for it is read as the same datum
with its tails merged, unless a list of the merged datum ends in the bare mark. Then the mark takes
the parenthesis that should close the list, and the text is not read as any datum.
-/

namespace ScopedLisp

namespace Grammar

open Datum

/-! ### What words denote -/

/-- What a word denotes can be printed, or it is the bare mark. -/
theorem readable_of_denotes {token : Token} {datum : Datum} (denotes : Denotes token datum)
    (cut : token.IsCutOff) : datum.Readable := by
  cases denotes with
  | integer numeral short => exact .inl (numeral.length_repr_le.trans short)
  | @atom text not_dot not_numeral =>
    rcases cut.symbol rfl with symbol | bare
    · have not_integer : Text.Numeral.isLiteral text.toList = false := by
        rw [Bool.eq_false_iff]
        intro literal
        obtain ⟨sign, digits, numeral⟩ := isLiteral_iff.mp literal
        exact not_numeral sign digits numeral
      exact .inl (isAtomText_of_isSymbol symbol not_dot not_integer)
    · have same : text = "#\\" := String.toList_inj.mp bare
      exact .inr (congrArg Datum.atom same)
  | boolean listed => exact .inl trivial
  | character c =>
    obtain ⟨name, following, spelled, taken⟩ := cut.lexeme.character
    have same : name = [c] := by
      rw [String.toList_append, String.toList_singleton] at spelled
      exact (List.cons.inj (List.cons.inj spelled).2).2.symm
    subst same
    have visible : Text.isBlank c = false := by
      rw [Bool.eq_false_iff]
      intro blank
      have none : Lexeme.characterLength ([c] ++ following) = none := by
        apply Lexeme.characterLength_of_blank
        rintro _ ⟨⟩
        exact blank
      rw [taken] at none
      cases none
    exact .inl ⟨c, rfl, .inl visible⟩
  | named known lower =>
    have listed : ∀ entry ∈ Literal.characterNames,
        entry.2 ∈ [' ', '\n', '\t', '\r', '\x00'].map String.singleton := by decide
    obtain ⟨c, member, same⟩ := List.mem_map.mp (listed _ known)
    exact .inl ⟨c, same.symm, .inr member⟩
  | string unescapes => exact .inl trivial

end Grammar

/-! ### What tokens denote -/

open Datum in
mutual

/-- What the tokens of a text denote can be printed, apart from bare marks. -/
theorem Derives.readable {tokens : List Token} {datum : Datum} (derives : Derives tokens datum)
    (cut : ∀ token ∈ tokens, token.IsCutOff) : datum.Readable := by
  match derives with
  | .word denotes => exact Grammar.readable_of_denotes denotes (cut _ List.mem_cons_self)
  | .quoted derives =>
    have quote : IsAtomText "quote" := by decide
    exact ⟨.inl quote, derives.readable (List.forall_mem_cons.mp cut).2, trivial⟩
  | .list derives =>
    have inner := (List.forall_mem_cons.mp cut).2
    exact derives.readable (List.forall_mem_append.mp inner).1
  | .dotted derives _ derives_tail =>
    have inner := (List.forall_mem_cons.mp cut).2
    obtain ⟨first, behind⟩ := List.forall_mem_append.mp inner
    have last := (List.forall_mem_append.mp (List.forall_mem_cons.mp behind).2).1
    exact ⟨derives.readable first, derives_tail.readable last⟩

theorem DerivesAll.readable {tokens : List Token} {items : List Datum}
    (derives : DerivesAll tokens items) (cut : ∀ token ∈ tokens, token.IsCutOff) :
    AllReadable items := by
  match derives with
  | .nil => trivial
  | .cons first rest =>
    obtain ⟨before, behind⟩ := List.forall_mem_append.mp cut
    exact ⟨first.readable before, rest.readable behind⟩

end

open Datum in
mutual

/-- Tokens that denote a datum close every list that they open. -/
theorem Derives.nesting_eq_zero {tokens : List Token} {datum : Datum}
    (derives : Derives tokens datum) : nesting tokens = 0 := by
  match derives with
  | .word denotes => cases denotes <;> exact nesting_word nofun nofun
  | .quoted derives =>
    rw [nesting_cons, derives.nesting_eq_zero]
    rfl
  | .list derives =>
    rw [nesting_cons, nesting_append, derives.nesting_eq_zero]
    rfl
  | .dotted derives _ derives_tail =>
    rw [nesting_cons, nesting_append, nesting_cons .dot, nesting_append, derives.nesting_eq_zero,
      derives_tail.nesting_eq_zero]
    rfl

theorem DerivesAll.nesting_eq_zero {tokens : List Token} {items : List Datum}
    (derives : DerivesAll tokens items) : nesting tokens = 0 := by
  match derives with
  | .nil => rfl
  | .cons first rest =>
    rw [nesting_append, first.nesting_eq_zero, rest.nesting_eq_zero]
    rfl

end

/-! ### What sources are read as -/

namespace Reader

variable {stack : ReadStack} {source : String} {datum : Datum}

/-- Whoever has read one datum has asked for more, and no failure was waiting there. -/
theorem failure_eq_none_of_single {stream left : TokenStream}
    (read : single stack stream = .ok datum left) : left.failure = none := by
  unfold single at read
  cases result : datum? stack stream with
  | error failure mid =>
    rw [Routine.bind_error result] at read
    cases read
  | ok found mid =>
    rw [Routine.bind_ok result] at read
    cases found with
    | none => cases read
    | some found =>
      obtain ⟨items, failure⟩ := mid
      cases items with
      | cons token rest => cases read
      | nil =>
        cases failure <;> cases read
        rfl

/-- A text that is read as one datum is scanned to its end. -/
theorem complete_of_readSource (read : readSource (single stack) source = .ok datum) :
    (Token.scan source).failure = none := by
  have fits : stack.FitsIn (.withRoom stack.room) 0 := ⟨rfl, nofun⟩
  have plain : (TokenStream.ofSource source).EndsPlainly := Token.scanFrom_endsPlainly _ _
  have alike := (single_alike fits _ plain).1
  unfold readSource at read
  cases result : single stack (TokenStream.ofSource source) with
  | error failure left =>
    rw [result] at read
    cases read
  | ok found left =>
    rw [result] at alike
    obtain same | ⟨_, exhausted⟩ := alike
    · obtain ⟨kept, -⟩ := (MeetsNoFailure.relation stack.room).single _ found left same.symm
      exact kept.symm.trans (failure_eq_none_of_single result)
    · cases exhausted

theorem derives_of_readSource (read : readSource (single stack) source = .ok datum) :
    Derives (Token.scan source).items datum := by
  have holds : readSource (single stack) source ≠ .error .stackExhausted := by
    rw [read]
    nofun
  exact (readSource_ok_iff (complete_of_readSource read) holds datum).mp read

theorem readable_of_readSource (read : readSource (single stack) source = .ok datum) :
    datum.Readable :=
  (derives_of_readSource read).readable fun _ =>
    Token.isCutOff_of_mem_scan (complete_of_readSource read)

/-- A text in which a parenthesis is lost is not read as a datum. -/
theorem not_read_spell (readable : datum.Readable) (lost : ¬datum.Separated false)
    (result : Datum) : readSource (single stack) (String.ofList datum.spell) ≠ .ok result := by
  intro read
  obtain ⟨found, scanned, -, opened⟩ := finds_source readable
  have balanced := (derives_of_readSource read).nesting_eq_zero
  have scanned : Token.scan (String.ofList datum.spell) = found := scanned
  rw [scanned] at balanced
  exact absurd balanced (opened lost).ne'

end Reader

/-- What has been read from a source can be placed in any session and printed. The printed text is
read as the same datum with its tails merged, if no list of the merged datum ends in the bare mark
of a character; the reader can then only fail for lack of stack, which it does not where the stack
has room for the depth of the datum. If a list ends in the bare mark, the printed text is not read
as a datum on any stack. -/
theorem Datum.reread_iff_separated {session : Session} (begins : session.store.BeginsWithNil)
    {stack : Reader.ReadStack} {source : String} {datum : Datum}
    (read : Reader.readSource (Reader.single stack) source = .ok datum) :
    ∃ h left text, Routine.embed datum session = .ok h left ∧
      left.store.render h = .ok text ∧
      (datum.merged.Separated false →
        (∀ stack, Reader.readSource (Reader.single stack) text = .ok datum.merged ∨
          Reader.readSource (Reader.single stack) text = .error .stackExhausted) ∧
        ∀ room, datum.merged.depth ≤ room →
          Reader.readSource (Reader.single (.withRoom room)) text = .ok datum.merged) ∧
      (¬datum.merged.Separated false →
        ∀ stack result, Reader.readSource (Reader.single stack) text ≠ .ok result) := by
  have readable := Reader.readable_of_readSource read
  have merged := isMerged_merged datum
  obtain ⟨h, left, placed, rendered⟩ := render_embedded begins readable
  refine ⟨h, left, _, placed, rendered, fun separated => ⟨?_, ?_⟩, fun lost stack result => ?_⟩
  · exact Reader.readSource_spell_or readable.merged separated merged
  · intro room deep
    exact Reader.readSource_spell readable.merged separated merged deep
  · exact Reader.not_read_spell readable.merged lost result

/-- A bare mark in front of a tail that is a list. In the merged list a blank stands behind it. -/
theorem Datum.reread_iff_separated_of_tail :
    Reader.readSource (Reader.single (.withRoom 3)) "(#\\ . (a))" =
        .ok (.dotted [.atom "#\\"] (.list [.atom "a"])) ∧
      ∃ h left text,
        Routine.embed (.dotted [.atom "#\\"] (.list [.atom "a"])) (Session.start .standard 0) =
          .ok h left ∧
        left.store.render h = .ok text ∧
        Reader.readSource (Reader.single (.withRoom 2)) text =
          .ok (.list [.atom "#\\", .atom "a"]) := by
  have scanned : Token.scan "(#\\ . (a))" =
      ⟨[.opening, ⟨.symbol, "#\\"⟩, .dot, .opening, ⟨.symbol, "a"⟩, .closing, .closing], none⟩ := by
    cbv
  have read : Reader.readSource (Reader.single (.withRoom 3)) "(#\\ . (a))" =
      .ok (.dotted [.atom "#\\"] (.list [.atom "a"])) := by
    rw [Reader.readSource, TokenStream.ofSource, scanned]
    rfl
  have begins : (Session.start .standard 0).store.BeginsWithNil := rfl
  obtain ⟨h, left, text, placed, rendered, reread, -⟩ := Datum.reread_iff_separated begins read
  have separated : (Datum.list [.atom "#\\", .atom "a"]).Separated false := by
    have other : Datum.atom "a" ≠ bareMark := by simp [bareMark]
    exact ⟨fun closed => absurd closed (by decide), fun _ => other, trivial⟩
  exact ⟨read, h, left, text, placed, rendered, (reread separated).2 2 (by decide)⟩

/-- A list that ends in the bare mark is read, and what is printed for it is not. -/
theorem Datum.not_reread_of_bareMark :
    Reader.readSource (Reader.single (.withRoom 2)) "(#\\ )" = .ok (.list [.atom "#\\"]) ∧
      ∃ h left, Routine.embed (.list [.atom "#\\"]) (Session.start .standard 0) = .ok h left ∧
        left.store.render h = .ok "(#\\)" ∧
        Reader.readSource (Reader.single (.withRoom 2)) "(#\\)" =
          .error (.malformedSource .unmatchedOpen) := by
  have scanned : Token.scan "(#\\ )" =
      ⟨[.opening, ⟨.symbol, "#\\"⟩, .closing], none⟩ := by cbv
  have rescanned : Token.scan "(#\\)" = ⟨[.opening, ⟨.character, "#\\)"⟩], none⟩ := by cbv
  have begins : (Session.start .standard 0).store.BeginsWithNil := rfl
  have readable : (Datum.list [.atom "#\\"]).Readable := ⟨.inr rfl, trivial⟩
  obtain ⟨h, left, placed, rendered⟩ := Datum.render_embedded begins readable
  refine ⟨?_, h, left, placed, rendered, ?_⟩
  · rw [Reader.readSource, TokenStream.ofSource, scanned]
    rfl
  · rw [Reader.readSource, TokenStream.ofSource, rescanned]
    rfl

end ScopedLisp
