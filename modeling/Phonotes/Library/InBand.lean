import Mathlib.Data.Prod.Basic
import Mathlib.Tactic.SplitIfs

/-!
A placeholder that is a value of the slot itself.

A slot that is `blank` may show a `placeholder` instead, so what it shows and what
it holds are values of one type. `erase` takes the placeholder away and `fill` puts
it in; what a slot holds is what `erase` makes of it, and neither changes that. In
a record of two slots, of which only the second has a placeholder, the placeholder
is presented when both are blank. The last law says which pairs come back from
the record as they were.
-/

namespace InBand

universe u

variable {α : Type u} [DecidableEq α] (blank placeholder : α)

/-- Take the placeholder for a blank slot. -/
def erase (a : α) : α := if a = placeholder then blank else a

/-- Show the placeholder in a blank slot. -/
def fill (a : α) : α := if a = blank then placeholder else a

theorem erase_blank : erase blank placeholder blank = blank := by
  unfold erase
  split_ifs <;> rfl

@[simp] theorem erase_erase (a : α) :
    erase blank placeholder (erase blank placeholder a) = erase blank placeholder a := by
  by_cases isPlaceholder : a = placeholder
  · have erased : erase blank placeholder a = blank := if_pos isPlaceholder
    rw [erased, erase_blank]
  · have kept : erase blank placeholder a = a := if_neg isPlaceholder
    rw [kept, kept]

@[simp] theorem erase_fill (a : α) :
    erase blank placeholder (fill blank placeholder a) = erase blank placeholder a := by
  by_cases isBlank : a = blank
  · rw [fill, if_pos isBlank, isBlank, erase_blank, erase, if_pos rfl]
  · rw [fill, if_neg isBlank]

variable {blank placeholder}

theorem erase_ne_placeholder (distinct : blank ≠ placeholder) (a : α) :
    erase blank placeholder a ≠ placeholder := by
  unfold erase
  split_ifs with isPlaceholder
  · exact distinct
  · exact isPlaceholder

theorem erase_of_ne {a : α} (real : a ≠ placeholder) : erase blank placeholder a = a :=
  if_neg real

theorem erase_eq_self_iff (distinct : blank ≠ placeholder) {a : α} :
    erase blank placeholder a = a ↔ a ≠ placeholder := by
  constructor
  · intro same
    rw [← same]
    exact erase_ne_placeholder distinct a
  · exact erase_of_ne

/-! ### Records -/

variable (blank placeholder)

/-- The record of two slots: what they hold. -/
def keep (shown : α × α) : α × α := (shown.1, erase blank placeholder shown.2)

/-- What is shown for a record. -/
def present (record : α × α) : α × α :=
  if record = (blank, blank) then (blank, placeholder) else record

variable {blank placeholder}

/-- A record that holds no placeholder is shown so that the same is kept again. -/
theorem keep_present {record : α × α} (real : record.2 ≠ placeholder) :
    keep blank placeholder (present blank placeholder record) = record := by
  unfold present
  split_ifs with empty
  · rw [keep, empty, erase, if_pos rfl]
  · rw [keep, erase_of_ne real]

/-- What was shown comes back exactly when a placeholder stood under a blank first
slot, and a blank second slot did not. -/
theorem present_keep_iff (distinct : blank ≠ placeholder) {shown : α × α} :
    present blank placeholder (keep blank placeholder shown) = shown ↔
      (shown.2 = placeholder → shown.1 = blank) ∧ shown ≠ (blank, blank) := by
  obtain ⟨first, second⟩ := shown
  by_cases isBlank : first = blank
  · subst isBlank
    by_cases isPlaceholder : second = placeholder
    · subst isPlaceholder
      have apart := distinct.symm
      simp [keep, present, erase, apart]
    · by_cases empty : second = first
      · subst empty
        simp [keep, present, erase, isPlaceholder, distinct.symm]
      · simp [keep, present, erase, isPlaceholder, empty]
  · have full : keep blank placeholder (first, second) ≠ (blank, blank) := by
      simp [keep, isBlank]
    rw [present, if_neg full, keep, Prod.mk.injEq, erase_eq_self_iff distinct]
    simp [isBlank]

end InBand
