import Mathlib.Data.List.Basic
import Mathlib.Data.List.TakeWhile
import ScopedLisp.Text.Numeral

/-!
# Decimal text of integers

Every integer is denoted by its own decimal text, which uses the ten ASCII digits only, be it as a
literal or as a setting.
-/

namespace ScopedLisp.Text

theorem dropWhile_of_none {α : Type} {p : α → Bool} {xs : List α} (none : ∀ x ∈ xs, p x = false) :
    xs.dropWhile p = xs := by
  cases xs with
  | nil => rfl
  | cons x rest => exact List.dropWhile_cons_of_neg (Bool.not_eq_true _ ▸ none x List.mem_cons_self)

theorem trimBy_of_none {p : Char → Bool} {cs : List Char} (none : ∀ c ∈ cs, p c = false) :
    trimBy p cs = cs := by
  have backwards : ∀ c ∈ cs.reverse, p c = false := fun c member =>
    none c (List.mem_reverse.mp member)
  rw [trimBy, dropWhile_of_none none, dropWhile_of_none backwards, List.reverse_reverse]

namespace Numeral

/-- The decimal text of an integer, however long it is. -/
def decimal (n : Int) : String :=
  if n < 0 then "-" ++ n.natAbs.repr else n.natAbs.repr

/-- An integer within the digit limit is printed in decimal. -/
theorem print?_of_short {n : Int} (short : n.natAbs.repr.length ≤ digitLimit) :
    print? n = some (decimal n) := by
  rw [print?, if_neg (Nat.not_lt.mpr short)]
  rfl

/-- Exactly the integers within the digit limit are printed, and in decimal. -/
theorem print?_eq_some_iff {n : Int} {text : String} :
    print? n = some text ↔ n.natAbs.repr.length ≤ digitLimit ∧ text = decimal n := by
  constructor
  · intro printed
    have short : n.natAbs.repr.length ≤ digitLimit := by
      by_contra long
      rw [print?, if_pos (Nat.not_le.mp long)] at printed
      cases printed
    rw [print?_of_short short] at printed
    exact ⟨short, (Option.some.inj printed).symm⟩
  · rintro ⟨short, rfl⟩
    exact print?_of_short short

/-- A number of too many digits has no text. -/
theorem print?_of_long {n : Nat} (long : digitLimit < n.repr.length) : print? n = none := by
  rw [print?, Int.natAbs_natCast, if_pos long]

/-- A power of ten has more digits than its exponent says. -/
theorem lt_length_repr_pow {k : Nat} (positive : 0 < k) : k < (Nat.pow 10 k).repr.length := by
  rw [← Nat.not_le, Nat.length_repr_le_iff positive]
  exact Nat.lt_irrefl _

/-! ### Digits -/

/-- The digits of a number are among the ten. -/
theorem exists_digitChar_of_mem_toDigits {c : Char} {n : Nat} (member : c ∈ Nat.toDigits 10 n) :
    ∃ digit < 10, c = digit.digitChar := by
  have isDigit := Nat.isDigit_of_mem_toDigits (by omega) (by omega) member
  rw [Char.isDigit_iff_toNat] at isDigit
  have lower : 48 ≤ c.toNat := isDigit.1
  have upper : c.toNat ≤ 57 := isDigit.2
  have small : c.toNat - 48 < 10 := by omega
  refine ⟨c.toNat - 48, small, Char.toNat_inj.mp ?_⟩
  rw [Nat.toNat_digitChar_of_lt_ten small]
  omega

theorem digitValue?_digitChar : ∀ digit < 10, digitValue? digit.digitChar = some digit := by
  decide

theorem digitValue?_of_mem_toDigits {c : Char} {n : Nat} (member : c ∈ Nat.toDigits 10 n) :
    digitValue? c = some (c.toNat - 48) := by
  obtain ⟨digit, small, rfl⟩ := exists_digitChar_of_mem_toDigits member
  rw [digitValue?_digitChar digit small, Nat.toNat_digitChar_sub_48_of_lt_ten small]

/-- What a number is written with counts as digits when it is read. -/
theorem isDecimalDigit_of_mem_toDigits {c : Char} {n : Nat} (member : c ∈ Nat.toDigits 10 n) :
    isDecimalDigit c = true := by
  rw [isDecimalDigit, digitValue?_of_mem_toDigits member]
  rfl

theorem filterMap_toDigits (n : Nat) :
    (Nat.toDigits 10 n).filterMap digitValue? = (Nat.toDigits 10 n).map (·.toNat - 48) :=
  List.filterMap_eq_map_iff_forall_eq_some.mpr fun _ member => digitValue?_of_mem_toDigits member

/-- The digits of a number denote the number. -/
theorem value_toDigits (n : Nat) : value ((Nat.toDigits 10 n).filterMap digitValue?) = n := by
  rw [filterMap_toDigits, value, List.foldl_map]
  exact Nat.ofDigitChars_eq_foldl.symm.trans Nat.ofDigitChars_ten_toDigits

/-! ### Literals -/

/-- A decimal is the digits of the absolute value, behind a sign if the integer is negative. -/
theorem toList_decimal (n : Int) :
    (decimal n).toList =
      if n < 0 then '-' :: Nat.toDigits 10 n.natAbs else Nat.toDigits 10 n.natAbs := by
  unfold decimal
  split
  · rw [String.toList_append, Nat.toList_repr]
    rfl
  · exact Nat.toList_repr

theorem mem_decimal {c : Char} {n : Int} (member : c ∈ (decimal n).toList) :
    c = '-' ∨ ∃ digit < 10, c = digit.digitChar := by
  rw [toList_decimal] at member
  split at member
  · exact (List.mem_cons.mp member).imp id exists_digitChar_of_mem_toDigits
  · exact .inr (exists_digitChar_of_mem_toDigits member)

theorem decimal_ne_nil (n : Int) : (decimal n).toList ≠ [] := by
  rw [toList_decimal]
  split
  · exact List.cons_ne_nil _ _
  · exact Nat.toDigits_ne_nil

theorem splitSign_toDigits (n : Nat) :
    splitSign (Nat.toDigits 10 n) = (false, Nat.toDigits 10 n) := by
  have unsigned : ∀ digit < 10, digit.digitChar ≠ '+' ∧ digit.digitChar ≠ '-' := by decide
  cases digits : Nat.toDigits 10 n with
  | nil => exact absurd digits Nat.toDigits_ne_nil
  | cons c rest =>
    have member : c ∈ Nat.toDigits 10 n := digits ▸ List.mem_cons_self
    obtain ⟨digit, small, rfl⟩ := exists_digitChar_of_mem_toDigits member
    obtain ⟨not_plus, not_minus⟩ := unsigned digit small
    unfold splitSign
    split
    · next same => exact absurd (List.cons.inj same).1 not_plus
    · next same => exact absurd (List.cons.inj same).1 not_minus
    · rfl

/-- The sign of a decimal is told from its digits. -/
theorem splitSign_decimal (n : Int) :
    splitSign (decimal n).toList = (decide (n < 0), Nat.toDigits 10 n.natAbs) := by
  rw [toList_decimal]
  split
  · next negative => rw [decide_eq_true negative]; rfl
  · next positive => rw [decide_eq_false positive, splitSign_toDigits]

/-- A decimal is a literal of the reader. -/
theorem isLiteral_decimal (n : Int) : isLiteral (decimal n).toList = true := by
  have digits : (Nat.toDigits 10 n.natAbs).all isDecimalDigit = true :=
    List.all_eq_true.mpr fun _ => isDecimalDigit_of_mem_toDigits
  have nonempty : (Nat.toDigits 10 n.natAbs).isEmpty = false :=
    List.isEmpty_eq_false_iff.mpr Nat.toDigits_ne_nil
  rw [isLiteral, splitSign_decimal]
  simp only [nonempty, digits, Bool.not_false, Bool.and_self]

/-- Reading undoes printing, as far as printing goes. -/
theorem ofLiteral_decimal {n : Int} (short : n.natAbs.repr.length ≤ digitLimit) :
    ofLiteral (decimal n).toList = .ok n := by
  have few : ((Nat.toDigits 10 n.natAbs).filterMap digitValue?).length ≤ digitLimit := by
    rw [filterMap_toDigits, List.length_map, ← Nat.toList_repr]
    exact short
  have sign : signed (decide (n < 0)) n.natAbs = n := by
    unfold signed
    split
    · next negative =>
      rw [decide_eq_true_eq] at negative
      omega
    · next positive =>
      rw [decide_eq_true_eq] at positive
      omega
  rw [ofLiteral, splitSign_decimal]
  simp only [ofDigits]
  rw [if_neg (Nat.not_lt.mpr few), value_toDigits, sign]

/-! ### Settings -/

theorem not_isBlank_of_mem_decimal {c : Char} {n : Int} (member : c ∈ (decimal n).toList) :
    isBlank c = false := by
  have solid : ∀ digit < 10, isBlank digit.digitChar = false := by decide
  obtain rfl | ⟨digit, small, rfl⟩ := mem_decimal member
  · rfl
  · exact solid digit small

/-- There are no blanks around the decimal text. -/
theorem trim_decimal (n : Int) : trim (decimal n) = decimal n := by
  rw [trim, trimBy_of_none fun _ => not_isBlank_of_mem_decimal, String.ofList_toList]

theorem isGrouped_cons {c : Char} (digit : isDecimalDigit c = true) (afterDigit : Bool)
    (rest : List Char) : isGrouped afterDigit (c :: rest) = isGrouped true rest := by
  have other : c ≠ '_' := by
    rintro rfl
    exact absurd digit (by decide)
  rw [isGrouped]
  exact other

/-- Digits alone are grouped correctly, without any separator. -/
theorem isGrouped_of_digits {cs : List Char} (digits : ∀ c ∈ cs, isDecimalDigit c = true) :
    isGrouped true cs = true := by
  induction cs with
  | nil => rfl
  | cons c rest ih =>
    obtain ⟨head, tail⟩ := List.forall_mem_cons.mp digits
    rw [isGrouped_cons head, ih tail]

/-- As a setting the decimal text denotes its number, too. -/
theorem read_decimal {n : Int} (short : n.natAbs.repr.length ≤ digitLimit) :
    read (decimal n) = .ok n := by
  have literal := ofLiteral_decimal short
  have unblank : ∀ c ∈ (decimal n).toList, (isBlank c && !isSeparator c) = false := by
    intro c member
    rw [not_isBlank_of_mem_decimal member, Bool.false_and]
  have digits : ∀ c ∈ Nat.toDigits 10 n.natAbs, isDecimalDigit c = true :=
    fun _ => isDecimalDigit_of_mem_toDigits
  have all_taken : ∀ c ∈ Nat.toDigits 10 n.natAbs, (isDecimalDigit c || c == '_') = true := by
    intro c member
    rw [digits c member, Bool.true_or]
  have grouped : isGrouped false (Nat.toDigits 10 n.natAbs) = true := by
    cases shape : Nat.toDigits 10 n.natAbs with
    | nil => exact absurd shape Nat.toDigits_ne_nil
    | cons c rest =>
      rw [shape] at digits
      obtain ⟨head, tail⟩ := List.forall_mem_cons.mp digits
      rw [isGrouped_cons head, isGrouped_of_digits tail]
  rw [ofLiteral, splitSign_decimal] at literal
  dsimp only at literal
  rw [read, trimBy_of_none unblank, splitSign_decimal]
  dsimp only
  rw [List.takeWhile_eq_self_iff.mpr all_taken, List.dropWhile_eq_nil_iff.mpr all_taken, grouped,
    literal]
  rfl

end Numeral

end ScopedLisp.Text
