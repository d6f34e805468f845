import Mathlib.Data.Nat.Digits.Defs
import ScopedLisp.Datum
import ScopedLisp.Proofs.Token.LexemeText
import ScopedLisp.Proofs.Text.Numeral

/-!
# The grammar of data

Which lists of tokens denote which data, without reference to a reader. A word denotes a datum by
itself: a numeral, an atom, a boolean, a character or a string. The other tokens are marks, from
which quotations and lists are formed.
-/

namespace ScopedLisp

namespace Grammar

/-! ### Words -/

/-- One or more decimal digits of these values. -/
structure IsDigits (cs : List Char) (digits : List Nat) : Prop where
  nonempty : cs ≠ []
  values : cs.map Text.digitValue? = digits.map some

/-- An optional sign in front of digits. `sign` is what the digits are multiplied by. -/
inductive IsNumeral : List Char → Int → List Nat → Prop where
  | unsigned {cs : List Char} {digits : List Nat} (spelled : IsDigits cs digits) :
    IsNumeral cs 1 digits
  | positive {cs : List Char} {digits : List Nat} (spelled : IsDigits cs digits) :
    IsNumeral ('+' :: cs) 1 digits
  | negative {cs : List Char} {digits : List Nat} (spelled : IsDigits cs digits) :
    IsNumeral ('-' :: cs) (-1) digits

/-- The text inside a string literal and the text that it denotes. Every backslash introduces an
escape that is known. -/
inductive Unescapes : List Char → List Char → Prop where
  | nil : Unescapes [] []
  | escape {letter c : Char} {body cs : List Char} (known : (letter, c) ∈ Literal.escapes)
    (rest : Unescapes body cs) : Unescapes ('\\' :: letter :: body) (c :: cs)
  | plain {c : Char} {body cs : List Char} (not_backslash : c ≠ '\\') (rest : Unescapes body cs) :
    Unescapes (c :: body) (c :: cs)

/-- The token denotes the datum by itself. A numeral of too many digits denotes nothing, nor does
a string with an unknown escape or an unknown name of a character. -/
inductive Denotes : Token → Datum → Prop where
  | integer {text : String} {sign : Int} {digits : List Nat}
    (numeral : IsNumeral text.toList sign digits) (short : digits.length ≤ Text.digitLimit) :
    Denotes ⟨.symbol, text⟩ (.integer (sign * (Nat.ofDigits 10 digits.reverse : Nat)))
  | atom {text : String} (not_dot : text ≠ ".")
    (not_numeral : ∀ sign digits, ¬IsNumeral text.toList sign digits) :
    Denotes ⟨.symbol, text⟩ (.atom text)
  | boolean {text : String} {value : Bool}
    (listed : (text, value) ∈ [("#t", true), ("#true", true), ("#f", false), ("#false", false)]) :
    Denotes ⟨.boolean, text⟩ (.boolean value)
  | character (c : Char) :
    Denotes ⟨.character, "#\\" ++ String.singleton c⟩ (.character (String.singleton c))
  | named {name text : String} {c : String} (known : (name, c) ∈ Literal.characterNames)
    (lower : text.toList.map Char.toLower = name.toList) :
    Denotes ⟨.character, "#\\" ++ text⟩ (.character c)
  | string {body cs : List Char} (unescapes : Unescapes body cs) :
    Denotes ⟨.string, String.ofList ('\x22' :: (body ++ ['\x22']))⟩ (.string (String.ofList cs))

/-! ### Numerals as they are read -/

theorem IsDigits.filterMap {cs : List Char} {digits : List Nat} (spelled : IsDigits cs digits) :
    cs.filterMap Text.digitValue? = digits := by
  have values := congrArg (List.filterMap id) spelled.values
  rw [List.filterMap_map, List.filterMap_map] at values
  simpa using values

theorem IsDigits.decimal {cs : List Char} {digits : List Nat} (spelled : IsDigits cs digits) :
    ∀ c ∈ cs, Text.isDecimalDigit c = true := by
  intro c member
  have listed : Text.digitValue? c ∈ digits.map some :=
    spelled.values ▸ List.mem_map_of_mem member
  obtain ⟨digit, -, same⟩ := List.mem_map.mp listed
  rw [Text.isDecimalDigit, ← same]
  rfl

theorem isDigits_of_decimal {cs : List Char} (nonempty : cs ≠ [])
    (decimal : ∀ c ∈ cs, Text.isDecimalDigit c = true) :
    IsDigits cs (cs.filterMap Text.digitValue?) := by
  refine ⟨nonempty, ?_⟩
  clear nonempty
  induction cs with
  | nil => rfl
  | cons c rest ih =>
    obtain ⟨first, others⟩ := List.forall_mem_cons.mp decimal
    obtain ⟨digit, value⟩ := Option.isSome_iff_exists.mp first
    rw [List.map_cons, List.filterMap_cons_some value, List.map_cons, value, ih others]

/-- A numeral is split into its sign and its digits. -/
theorem IsNumeral.splitSign {cs : List Char} {sign : Int} {digits : List Nat}
    (numeral : IsNumeral cs sign digits) :
    ∃ negative ds, Text.Numeral.splitSign cs = (negative, ds) ∧ IsDigits ds digits ∧
      ∀ n, Text.Numeral.signed negative n = sign * n := by
  cases numeral with
  | unsigned spelled =>
    refine ⟨false, cs, ?_, spelled, fun n => (one_mul _).symm⟩
    have digit := spelled.decimal
    unfold Text.Numeral.splitSign
    split
    · exact absurd (digit '+' List.mem_cons_self) (by decide)
    · exact absurd (digit '-' List.mem_cons_self) (by decide)
    · rfl
  | positive spelled => exact ⟨false, _, rfl, spelled, fun n => (one_mul _).symm⟩
  | negative spelled => exact ⟨true, _, rfl, spelled, fun n => (neg_one_mul _).symm⟩

theorem isLiteral_iff {cs : List Char} :
    Text.Numeral.isLiteral cs = true ↔ ∃ sign digits, IsNumeral cs sign digits := by
  constructor
  · intro literal
    simp only [Text.Numeral.isLiteral, Bool.and_eq_true, Bool.not_eq_true',
      List.isEmpty_eq_false_iff, List.all_eq_true] at literal
    obtain ⟨nonempty, decimal⟩ := literal
    have spelled := isDigits_of_decimal nonempty decimal
    unfold Text.Numeral.splitSign at spelled
    split at spelled
    · exact ⟨_, _, .positive spelled⟩
    · exact ⟨_, _, .negative spelled⟩
    · exact ⟨_, _, .unsigned spelled⟩
  · rintro ⟨sign, digits, numeral⟩
    obtain ⟨negative, ds, split, spelled, -⟩ := numeral.splitSign
    simp only [Text.Numeral.isLiteral, split, Bool.and_eq_true, Bool.not_eq_true',
      List.isEmpty_eq_false_iff, List.all_eq_true]
    exact ⟨spelled.nonempty, spelled.decimal⟩

theorem value_eq_ofDigits (digits : List Nat) :
    Text.Numeral.value digits = Nat.ofDigits 10 digits.reverse := by
  rw [Nat.ofDigits_eq_foldr, List.foldr_reverse]
  simp only [Text.Numeral.value, Nat.cast_id, Nat.add_comm]

/-- What reading a numeral gives. -/
theorem IsNumeral.ofLiteral {cs : List Char} {sign : Int} {digits : List Nat}
    (numeral : IsNumeral cs sign digits) :
    Text.Numeral.ofLiteral cs =
      if digits.length > Text.digitLimit then .error .tooLong
      else .ok (sign * (Nat.ofDigits 10 digits.reverse : Nat)) := by
  obtain ⟨negative, ds, split, spelled, signed⟩ := numeral.splitSign
  simp only [Text.Numeral.ofLiteral, split, spelled.filterMap, Text.Numeral.ofDigits, signed,
    value_eq_ofDigits]

theorem IsDigits.lt_ten {cs : List Char} {digits : List Nat} (spelled : IsDigits cs digits) :
    ∀ digit ∈ digits, digit < 10 := by
  intro digit member
  have listed : some digit ∈ cs.map Text.digitValue? :=
    spelled.values ▸ List.mem_map_of_mem member
  obtain ⟨c, -, value⟩ := List.mem_map.mp listed
  exact Text.digitValue?_lt_ten value

theorem IsDigits.length_pos {cs : List Char} {digits : List Nat} (spelled : IsDigits cs digits) :
    0 < digits.length := by
  have same := congrArg List.length spelled.values
  rw [List.length_map, List.length_map] at same
  rw [← same]
  exact List.length_pos_of_ne_nil spelled.nonempty

/-- A number has no more digits than its numeral, which may have leading zeros. -/
theorem IsDigits.length_repr_le {cs : List Char} {digits : List Nat}
    (spelled : IsDigits cs digits) :
    (Nat.ofDigits 10 digits.reverse : Nat).repr.length ≤ digits.length := by
  apply Nat.repr_length _ _ spelled.length_pos
  rw [← List.length_reverse]
  apply Nat.ofDigits_lt_base_pow_length (by decide)
  intro digit member
  exact spelled.lt_ten digit (List.mem_reverse.mp member)

theorem IsNumeral.length_repr_le {cs : List Char} {sign : Int} {digits : List Nat}
    (numeral : IsNumeral cs sign digits) :
    (sign * (Nat.ofDigits 10 digits.reverse : Nat)).natAbs.repr.length ≤ digits.length := by
  cases numeral with
  | unsigned spelled | positive spelled =>
    rw [one_mul, Int.natAbs_natCast]
    exact spelled.length_repr_le
  | negative spelled =>
    rw [neg_one_mul, Int.natAbs_neg, Int.natAbs_natCast]
    exact spelled.length_repr_le

/-! ### Strings as they are read -/

theorem Unescapes.unescape {body cs : List Char} (unescapes : Unescapes body cs) :
    Literal.unescape body = .ok cs := by
  have known_iff : ∀ entry ∈ Literal.escapes, Literal.escapes.lookup entry.1 = some entry.2 := by
    decide
  induction unescapes with
  | nil => rfl
  | @escape letter c body cs known _ ih =>
    have found := known_iff _ known
    simp only at found
    rw [Literal.unescape]
    simp only [found, ih]
    rfl
  | @plain c body cs not_backslash _ ih =>
    rw [Literal.unescape, ih]
    · rfl
    · rintro _ _ rfl
      exact absurd rfl not_backslash

theorem exists_of_map_eq_ok {c : Char} {result : Except SourceDefect (List Char)} {cs : List Char}
    (read : result.map (c :: ·) = .ok cs) : ∃ rest, result = .ok rest ∧ cs = c :: rest := by
  cases result with
  | ok rest =>
    cases read
    exact ⟨rest, rfl, rfl⟩
  | error defect => cases read

/-- The text inside a string literal that comes from a source. -/
theorem unescapes_of_unescape {body cs : List Char} (closed : Lexeme.IsStringBody body)
    (read : Literal.unescape body = .ok cs) : Unescapes body cs := by
  induction closed generalizing cs with
  | nil =>
    cases read
    exact .nil
  | escape letter rest ih =>
    rw [Literal.unescape] at read
    split at read
    · next c found =>
      have known : (letter, c) ∈ Literal.escapes := Literal.mem_of_lookup found
      obtain ⟨cs, later, rfl⟩ := exists_of_map_eq_ok read
      exact .escape known (ih later)
    · cases read
  | plain not_backslash not_mark rest ih =>
    rw [Literal.unescape] at read
    · obtain ⟨cs, later, rfl⟩ := exists_of_map_eq_ok read
      exact .plain not_backslash (ih later)
    · rintro _ _ rfl
      exact absurd rfl not_backslash

end Grammar

/-- The mark that quotes the datum behind it. -/
def Token.quoteMark : Token := ⟨.quote, "\x27"⟩

open Grammar in
mutual

/-- The tokens denote the datum. -/
inductive Derives : List Token → Datum → Prop where
  | word {token : Token} {datum : Datum} (denotes : Denotes token datum) : Derives [token] datum
  | quoted {tokens : List Token} {datum : Datum} (derives : Derives tokens datum) :
    Derives (.quoteMark :: tokens) (.list [.atom "quote", datum])
  | list {tokens : List Token} {items : List Datum} (derives : DerivesAll tokens items) :
    Derives (.opening :: (tokens ++ [.closing])) (.list items)
  | dotted {tokens last : List Token} {items : List Datum} {tail : Datum}
    (derives : DerivesAll tokens items) (some_items : items ≠ [])
    (derives_tail : Derives last tail) :
    Derives (.opening :: (tokens ++ .dot :: (last ++ [.closing]))) (.dotted items tail)

/-- The tokens denote the data one after another. -/
inductive DerivesAll : List Token → List Datum → Prop where
  | nil : DerivesAll [] []
  | cons {tokens more : List Token} {datum : Datum} {items : List Datum}
    (first : Derives tokens datum) (rest : DerivesAll more items) :
    DerivesAll (tokens ++ more) (datum :: items)

end

end ScopedLisp
