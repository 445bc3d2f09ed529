import Mathlib.Data.List.Basic
import Mathlib.Logic.Function.Basic

/-!
The map that a sequence of writes leaves behind.

`lastWrite initial writes k` is read off the sequence itself: the value of the
last write to `k`, and the initial value when there is none. The `snoc` law is
the link to a store that overwrites one key at a time.
-/

namespace LastWrite

universe u v

variable {κ : Type u} {ν : Type v} [DecidableEq κ]

/-- The value last written to a key, or its initial one. -/
def lastWrite (initial : κ → ν) (writes : List (κ × ν)) (k : κ) : ν :=
  match writes.reverse.find? fun w => w.1 = k with
  | some w => w.2
  | none => initial k

/-- One more write changes its own key and no other. -/
theorem lastWrite_snoc (initial : κ → ν) (writes : List (κ × ν)) (k : κ) (x : ν) :
    lastWrite initial (writes ++ [(k, x)]) = Function.update (lastWrite initial writes) k x := by
  funext j
  by_cases same : k = j
  · subst same
    simp [lastWrite]
  · have other : j ≠ k := fun eq => same eq.symm
    simp [lastWrite, same, Function.update_of_ne other]

/-- A property of all initial and all written values is one of the map. -/
theorem lastWrite_all {P : κ → ν → Prop} {initial : κ → ν} {writes : List (κ × ν)}
    (initially : ∀ k, P k (initial k)) (written : ∀ w ∈ writes, P w.1 w.2) (k : κ) :
    P k (lastWrite initial writes k) := by
  unfold lastWrite
  cases found : writes.reverse.find? fun w => w.1 = k with
  | none => exact initially k
  | some w =>
      have member := List.mem_of_find?_eq_some found
      have key := List.find?_some found
      rw [decide_eq_true_eq] at key
      subst key
      exact written w (List.mem_reverse.mp member)

end LastWrite
