import Mathlib.Data.Option.Basic

/-!
A value with at most one write transaction on it.

Readers of the handle that writes see the working copy as soon as the
transaction is open; everyone else, and every later launch, sees `committed`.
Nothing here says what a caller does when a commit fails: an abandoned
transaction is simply one that is still open.
-/

namespace Transaction

universe u

variable {α : Type u}

/-- The committed value and, while a write transaction is open, its working
copy. -/
structure Versioned (α : Type u) where
  committed : α
  working : Option α := none

namespace Versioned

/-- What the handle reads: the working copy while a transaction is open. -/
def current (v : Versioned α) : α := v.working.getD v.committed

/-- Open a transaction; there is at most one at a time. -/
def begin (v : Versioned α) : Option (Versioned α) :=
  match v.working with
  | some _ => none
  | none => some { v with working := some v.committed }

/-- Write to the working copy. -/
def modify (f : α → α) (v : Versioned α) : Versioned α :=
  { v with working := v.working.map f }

/-- Publish the working copy and close the transaction. -/
def commit (v : Versioned α) : Versioned α := ⟨v.current, none⟩

/-- No transaction is open. -/
def Idle (v : Versioned α) : Prop := v.working = none

instance (v : Versioned α) : Decidable v.Idle :=
  decidable_of_iff (v.working.isNone = true) Option.isNone_iff_eq_none

theorem begin_of_idle {v : Versioned α} (idle : v.Idle) :
    v.begin = some ⟨v.committed, some v.committed⟩ := by
  unfold Idle at idle
  simp only [begin, idle]

theorem begin_of_not_idle {v : Versioned α} (opened : ¬ v.Idle) : v.begin = none := by
  unfold Idle at opened
  cases held : v.working with
  | none => exact absurd held opened
  | some copy => simp only [begin, held]

theorem current_of_idle {v : Versioned α} (idle : v.Idle) : v.current = v.committed := by
  unfold Idle at idle
  simp only [current, idle, Option.getD_none]

/-- The same transaction, never committed: nothing is published and it stays
open. -/
theorem modify_open (c : α) (f : α → α) :
    modify f ⟨c, some c⟩ = ⟨c, some (f c)⟩ := rfl

/-! ### Two levels of one value -/

section Map

variable {β : Type*} {f : α → β} {v : Versioned α}

/-- The versions of the value that `f` reads off. -/
def map (f : α → β) (v : Versioned α) : Versioned β := ⟨f v.committed, v.working.map f⟩

theorem current_map : (v.map f).current = f v.current := by
  cases held : v.working with
  | none => simp [current, map, held]
  | some copy => simp [current, map, held]

theorem idle_map_iff : (v.map f).Idle ↔ v.Idle := by
  simp only [Idle, map, Option.map_eq_none_iff]

theorem commit_map : v.commit.map f = (v.map f).commit := by
  rw [commit, commit, current_map]
  rfl

end Map

end Versioned

end Transaction
