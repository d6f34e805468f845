import ScopedLisp.Datum

/-!
# Values of the embedding program

A value of the embedding program has a shown text unless some part of it has none, and then the
first such part decides how showing it fails.

* A value all of whose parts are shown is shown itself (`exists_display`).
* Otherwise the failure is the one of the first part that is not (`display_of_unshown`), and there
  is no other failure (`display_eq_error`).
-/

namespace ScopedLisp.HostValue

mutual

/-- Why the value has no shown text: the reason of the first part of it that has none. -/
def unshown? : HostValue → Option Unshown
  | .integer value =>
    if (Text.Numeral.print? value).isNone then some .tooManyDigits else Option.none
  | .list items => unshownAmong? items
  | .other (.error reason) => some reason
  | _ => Option.none

def unshownAmong? : List HostValue → Option Unshown
  | [] => Option.none
  | value :: rest => (unshown? value).or (unshownAmong? rest)

end

mutual

/-- Where every part of the value is shown, so is the value. -/
theorem exists_display {value : HostValue} (shown : value.unshown? = Option.none) :
    ∃ text, value.display = .ok text := by
  match value with
  | .none | .boolean true | .boolean false | .text _ | .other (.ok _) => exact ⟨_, rfl⟩
  | .integer value =>
    rw [display]
    cases printed : Text.Numeral.print? value with
    | some digits => exact ⟨digits, rfl⟩
    | none =>
      rw [unshown?, printed] at shown
      cases shown
  | .list items =>
    obtain ⟨texts, all⟩ := exists_displayAll shown
    rw [display, all]
    exact ⟨_, rfl⟩

theorem exists_displayAll {items : List HostValue} (shown : unshownAmong? items = Option.none) :
    ∃ texts, displayAll items = .ok texts := by
  match items with
  | [] => exact ⟨[], rfl⟩
  | value :: rest =>
    obtain ⟨head, tail⟩ := Option.or_eq_none_iff.mp shown
    obtain ⟨text, first⟩ := exists_display head
    obtain ⟨texts, others⟩ := exists_displayAll tail
    rw [displayAll, first, others]
    exact ⟨_, rfl⟩

end

mutual

/-- Where a part of the value is not shown, neither is the value, for the first such reason. -/
theorem display_of_unshown {value : HostValue} {reason : Unshown}
    (unshown : value.unshown? = some reason) : value.display = .error reason.failure := by
  match value with
  | .integer value =>
    rw [display]
    cases printed : Text.Numeral.print? value with
    | some digits =>
      rw [unshown?, printed] at unshown
      cases unshown
    | none =>
      rw [unshown?, printed] at unshown
      cases unshown
      rfl
  | .list items =>
    rw [display, displayAll_of_unshown unshown]
    rfl
  | .other (.error _) =>
    cases unshown
    rfl

theorem displayAll_of_unshown {items : List HostValue} {reason : Unshown}
    (unshown : unshownAmong? items = some reason) :
    displayAll items = .error reason.failure := by
  match items with
  | value :: rest =>
    rw [unshownAmong?] at unshown
    rw [displayAll]
    cases head : value.unshown? with
    | some first =>
      rw [head, Option.some_or] at unshown
      cases unshown
      rw [display_of_unshown head]
      rfl
    | none =>
      rw [head, Option.none_or] at unshown
      obtain ⟨text, shown⟩ := exists_display head
      rw [shown, displayAll_of_unshown unshown]
      rfl

end

/-- A value is not shown for one of the two reasons only. -/
theorem display_eq_error {value : HostValue} {failure : Failure}
    (failed : value.display = .error failure) :
    ∃ reason, value.unshown? = some reason ∧ failure = reason.failure := by
  cases unshown : value.unshown? with
  | none =>
    obtain ⟨text, shown⟩ := exists_display unshown
    rw [shown] at failed
    cases failed
  | some reason =>
    rw [display_of_unshown unshown] at failed
    cases failed
    exact ⟨reason, rfl, rfl⟩

end ScopedLisp.HostValue
