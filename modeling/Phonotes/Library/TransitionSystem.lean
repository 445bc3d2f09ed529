import Mathlib.Data.List.Induction

/-!
Finite runs of a partial step function, and what can be said along them.

A `Run` keeps its transitions, so that a property of a run can speak of the
order of its steps. An `Observer` is a history variable: a value folded over
the transitions made so far, which the system itself never reads. `Along` asks
every transition of a run for a relation to the history before it; the rules
below prove such a statement from an invariant that ties the history to the
state.
-/

namespace TransitionSystem

universe u v w

variable {σ : Type u} {ε : Type v} {η : Type w}

/-- One step of a run, with the states on both sides of it. -/
structure Transition (σ : Type u) (ε : Type v) where
  before : σ
  event : ε
  after : σ

/-- `Run step start history s`: the transitions `history`, oldest first, lead
from `start` to `s`. -/
inductive Run (step : σ → ε → Option σ) (start : σ) : List (Transition σ ε) → σ → Prop where
  | nil : Run step start [] start
  | snoc {history : List (Transition σ ε)} {s s' : σ} {e : ε} :
      Run step start history s → step s e = some s' →
      Run step start (history ++ [⟨s, e, s'⟩]) s'

/-- The transitions that a list of events makes, if every one can be taken. -/
def play (step : σ → ε → Option σ) : σ → List ε → Option (List (Transition σ ε) × σ)
  | s, [] => some ([], s)
  | s, e :: es =>
      match step s e with
      | none => none
      | some s' => (play step s' es).map fun rest => (⟨s, e, s'⟩ :: rest.1, rest.2)

theorem Run.cons {step : σ → ε → Option σ} {start middle s : σ} {e : ε}
    {history : List (Transition σ ε)} (taken : step start e = some middle)
    (run : Run step middle history s) : Run step start (⟨start, e, middle⟩ :: history) s := by
  induction run with
  | nil => exact .snoc .nil taken
  | snoc _ last ih => exact .snoc ih last

theorem run_of_play {step : σ → ε → Option σ} {start s : σ} {events : List ε}
    {history : List (Transition σ ε)} (played : play step start events = some (history, s)) :
    Run step start history s := by
  induction events generalizing start history with
  | nil =>
      cases played
      exact .nil
  | cons e es ih =>
      simp only [play] at played
      cases taken : step start e with
      | none => simp [taken] at played
      | some middle =>
          simp only [taken, Option.map_eq_some_iff] at played
          obtain ⟨⟨rest, last⟩, playedRest, same⟩ := played
          cases same
          exact (ih playedRest).cons taken

/-! ### Invariants -/

section Invariants

variable {step : σ → ε → Option σ} {start s : σ} {history : List (Transition σ ε)}

/-- A property of the first state that every step keeps holds in every state
reached. `C` restricts the runs: it holds of every transition made. -/
theorem Run.invariant {P : σ → Prop} {C : Transition σ ε → Prop} (initial : P start)
    (preserved : ∀ s e s', C ⟨s, e, s'⟩ → P s → step s e = some s' → P s')
    (run : Run step start history s) (all : ∀ t ∈ history, C t) : P s := by
  induction run with
  | nil => exact initial
  | snoc _ taken ih =>
      exact preserved _ _ _ (all _ (by simp)) (ih fun t ht => all t (by simp [ht])) taken

/-- The same rule for all runs. -/
theorem Run.always {P : σ → Prop} (initial : P start)
    (preserved : ∀ s e s', P s → step s e = some s' → P s')
    (run : Run step start history s) : P s :=
  run.invariant (C := fun _ => True) initial (fun s e s' _ => preserved s e s')
    (fun _ _ => trivial)

/-- Under such an invariant, a property that every single step guarantees is one of
every transition made. -/
theorem Run.forall_of_invariant {P : σ → Prop} {C Q : Transition σ ε → Prop} (initial : P start)
    (preserved : ∀ s e s', C ⟨s, e, s'⟩ → P s → step s e = some s' → P s')
    (ensured : ∀ s e s', C ⟨s, e, s'⟩ → P s → step s e = some s' → Q ⟨s, e, s'⟩)
    (run : Run step start history s) (all : ∀ t ∈ history, C t) : ∀ t ∈ history, Q t := by
  induction run with
  | nil =>
      intro t member
      cases member
  | snoc earlier taken ih =>
      intro t member
      have before : ∀ t ∈ _, C t := fun t ht => all t (List.mem_append_left _ ht)
      rcases List.mem_append.mp member with inEarlier | isLast
      · exact ih before t inEarlier
      · rw [List.mem_singleton] at isLast
        subst isLast
        exact ensured _ _ _ (all _ (by simp)) (earlier.invariant initial preserved before) taken

/-- Every transition of a run is a step. -/
theorem Run.step_of_mem (run : Run step start history s) {t : Transition σ ε}
    (member : t ∈ history) : step t.before t.event = some t.after := by
  induction run with
  | nil => cases member
  | snoc _ taken ih =>
      rcases List.mem_append.mp member with earlier | last
      · exact ih earlier
      · rw [List.mem_singleton] at last
        subst last
        exact taken

/-- What holds at the start and after every transition holds at the end. -/
theorem Run.last_of_forall_after {P : σ → Prop} (initial : P start)
    (run : Run step start history s) (after : ∀ t ∈ history, P t.after) : P s := by
  cases run with
  | nil => exact initial
  | snoc _ _ => exact after _ (List.mem_append_right _ (List.mem_singleton_self _))

/-- When a single step keeps a property exactly under some condition, a run keeps
it throughout exactly when every transition meets the condition. -/
theorem Run.forall_after_iff {I P : σ → Prop} {C Q : Transition σ ε → Prop} (initial : I start)
    (holds : P start)
    (preserved : ∀ s e s', C ⟨s, e, s'⟩ → I s → step s e = some s' → I s')
    (agree : ∀ s e s', C ⟨s, e, s'⟩ → I s → P s → step s e = some s' → (P s' ↔ Q ⟨s, e, s'⟩))
    (run : Run step start history s) (all : ∀ t ∈ history, C t) :
    (∀ t ∈ history, P t.after) ↔ ∀ t ∈ history, Q t := by
  induction run with
  | nil => simp
  | @snoc history s s' e earlier taken ih =>
      have before : ∀ t ∈ history, C t := fun t member => all t (List.mem_append_left _ member)
      have allowed : C ⟨s, e, s'⟩ := all _ (by simp)
      have invariant := earlier.invariant initial preserved before
      simp only [List.forall_mem_append, List.forall_mem_singleton, ih before]
      refine and_congr_right ?_
      intro conditions
      have reached := earlier.last_of_forall_after holds ((ih before).mpr conditions)
      exact agree s e s' allowed invariant reached taken

end Invariants

/-! ### History variables -/

/-- A history variable: its value before the first step, and how a transition
changes it. -/
structure Observer (σ : Type u) (ε : Type v) (η : Type w) where
  initial : η
  observe : η → Transition σ ε → η

namespace Observer

/-- The value of the history variable after the transitions `history`. -/
def after (O : Observer σ ε η) (history : List (Transition σ ε)) : η :=
  history.foldl O.observe O.initial

@[simp] theorem after_snoc (O : Observer σ ε η) (history : List (Transition σ ε))
    (t : Transition σ ε) : O.after (history ++ [t]) = O.observe (O.after history) t := by
  simp [after]

/-- Two history variables kept side by side. -/
def pair {θ : Type*} (O : Observer σ ε η) (O' : Observer σ ε θ) : Observer σ ε (η × θ) :=
  ⟨(O.initial, O'.initial), fun h t => (O.observe h.1 t, O'.observe h.2 t)⟩

theorem after_pair {θ : Type*} (O : Observer σ ε η) (O' : Observer σ ε θ)
    (history : List (Transition σ ε)) :
    (O.pair O').after history = (O.after history, O'.after history) := by
  induction history using List.reverseRecOn with
  | nil => rfl
  | append_singleton history t ih => simp only [after_snoc, ih]; rfl

/-- Every transition of `history` satisfies `P` against the history before it. -/
def Along (O : Observer σ ε η) (P : η → Transition σ ε → Prop)
    (history : List (Transition σ ε)) : Prop :=
  ∀ earlier t later, history = earlier ++ t :: later → P (O.after earlier) t

theorem along_nil (O : Observer σ ε η) (P : η → Transition σ ε → Prop) : O.Along P [] := by
  intro earlier t later split
  simp at split

theorem along_snoc_iff {O : Observer σ ε η} {P : η → Transition σ ε → Prop}
    {history : List (Transition σ ε)} {t : Transition σ ε} :
    O.Along P (history ++ [t]) ↔ O.Along P history ∧ P (O.after history) t := by
  constructor
  · intro along
    refine ⟨?_, along history t [] rfl⟩
    intro earlier u later split
    exact along earlier u (later ++ [t]) (by simp [split])
  · rintro ⟨along, last⟩ earlier u later split
    rcases List.eq_nil_or_concat later with rfl | ⟨rest, v, rfl⟩
    · obtain ⟨rfl, same⟩ := List.append_inj' split rfl
      obtain ⟨rfl, -⟩ := List.cons.inj same
      exact last
    · rw [List.concat_eq_append, ← List.cons_append, ← List.append_assoc] at split
      obtain ⟨earlierSplit, -⟩ := List.append_inj' split rfl
      exact along earlier u rest earlierSplit

theorem along_true (O : Observer σ ε η) (history : List (Transition σ ε)) :
    O.Along (fun _ _ => True) history := fun _ _ _ _ => trivial

/-- A relation that ignores the history variable is one of every transition. -/
theorem along_const_iff (O : Observer σ ε η) {P : Transition σ ε → Prop}
    {history : List (Transition σ ε)} :
    O.Along (fun _ => P) history ↔ ∀ t ∈ history, P t := by
  constructor
  · intro along t member
    obtain ⟨earlier, later, split⟩ := List.append_of_mem member
    exact along earlier t later split
  · intro all earlier t later split
    exact all t (by simp [split])

theorem along_and {O : Observer σ ε η} {P Q : η → Transition σ ε → Prop}
    {history : List (Transition σ ε)} (first : O.Along P history) (second : O.Along Q history) :
    O.Along (fun h t => P h t ∧ Q h t) history :=
  fun earlier t later split => ⟨first earlier t later split, second earlier t later split⟩

/-- `Along`, computed from the value `h` of the history variable. -/
def AlongFrom (O : Observer σ ε η) (P : η → Transition σ ε → Prop) :
    η → List (Transition σ ε) → Prop
  | _, [] => True
  | h, t :: history => P h t ∧ O.AlongFrom P (O.observe h t) history

theorem alongFrom_append {O : Observer σ ε η} {P : η → Transition σ ε → Prop} {h : η}
    {history later : List (Transition σ ε)} :
    O.AlongFrom P h (history ++ later) ↔
      O.AlongFrom P h history ∧ O.AlongFrom P (history.foldl O.observe h) later := by
  induction history generalizing h with
  | nil => simp [AlongFrom]
  | cons t history ih => simp only [List.cons_append, AlongFrom, ih, List.foldl_cons, and_assoc]

theorem along_iff_alongFrom {O : Observer σ ε η} {P : η → Transition σ ε → Prop}
    {history : List (Transition σ ε)} :
    O.Along P history ↔ O.AlongFrom P O.initial history := by
  induction history using List.reverseRecOn with
  | nil => exact iff_of_true (along_nil O P) trivial
  | append_singleton history t ih =>
      rw [along_snoc_iff, alongFrom_append, ih]
      simp only [AlongFrom, and_true, after]

instance decidableAlongFrom (O : Observer σ ε η) (P : η → Transition σ ε → Prop)
    [∀ h t, Decidable (P h t)] : ∀ h history, Decidable (O.AlongFrom P h history)
  | _, [] => inferInstanceAs (Decidable True)
  | h, t :: history =>
      have := decidableAlongFrom O P (O.observe h t) history
      inferInstanceAs (Decidable (_ ∧ _))

/-- What is said along a history can be evaluated on it. -/
instance {O : Observer σ ε η} {P : η → Transition σ ε → Prop} [∀ h t, Decidable (P h t)]
    (history : List (Transition σ ε)) : Decidable (O.Along P history) :=
  decidable_of_iff _ along_iff_alongFrom.symm

/-- What is said of the first of two history variables does not depend on the
second. -/
theorem along_pair_left {θ : Type*} {O : Observer σ ε η} (O' : Observer σ ε θ)
    {P : η → Transition σ ε → Prop} {history : List (Transition σ ε)} :
    (O.pair O').Along (fun h t => P h.1 t) history ↔ O.Along P history := by
  simp only [Along, after_pair]

theorem along_pair_right {θ : Type*} (O : Observer σ ε η) {O' : Observer σ ε θ}
    {P : θ → Transition σ ε → Prop} {history : List (Transition σ ε)} :
    (O.pair O').Along (fun h t => P h.2 t) history ↔ O'.Along P history := by
  simp only [Along, after_pair]

end Observer

/-! ### Rules for runs with a history -/

section Rules

variable {step : σ → ε → Option σ} {start s : σ} {history : List (Transition σ ε)}
  {O : Observer σ ε η} {I : η → σ → Prop} {C P Q : η → Transition σ ε → Prop}

/-- The invariant rule with a history variable, for runs all of whose
transitions satisfy `C`. -/
theorem Run.invariant_along (initial : I O.initial start)
    (preserved : ∀ h s e s', C h ⟨s, e, s'⟩ → I h s → step s e = some s' →
      I (O.observe h ⟨s, e, s'⟩) s')
    (run : Run step start history s) (along : O.Along C history) : I (O.after history) s := by
  induction run with
  | nil => exact initial
  | snoc _ taken ih =>
      obtain ⟨before, last⟩ := Observer.along_snoc_iff.mp along
      rw [Observer.after_snoc]
      exact preserved _ _ _ _ last (ih before) taken

/-- Under an invariant, a relation that every single step guarantees holds
along the run. -/
theorem Run.along_of_invariant (initial : I O.initial start)
    (preserved : ∀ h s e s', C h ⟨s, e, s'⟩ → I h s → step s e = some s' →
      I (O.observe h ⟨s, e, s'⟩) s')
    (ensured : ∀ h s e s', C h ⟨s, e, s'⟩ → I h s → step s e = some s' → P h ⟨s, e, s'⟩)
    (run : Run step start history s) (along : O.Along C history) : O.Along P history := by
  induction run with
  | nil => exact Observer.along_nil O P
  | snoc earlier taken ih =>
      obtain ⟨before, last⟩ := Observer.along_snoc_iff.mp along
      exact Observer.along_snoc_iff.mpr ⟨ih before,
        ensured _ _ _ _ last (Run.invariant_along initial preserved earlier before) taken⟩

/-- Under an invariant, two relations that agree at every single step hold
along the same runs. -/
theorem Run.along_congr (initial : I O.initial start)
    (preserved : ∀ h s e s', C h ⟨s, e, s'⟩ → I h s → step s e = some s' →
      I (O.observe h ⟨s, e, s'⟩) s')
    (agree : ∀ h s e s', C h ⟨s, e, s'⟩ → I h s → step s e = some s' →
      (P h ⟨s, e, s'⟩ ↔ Q h ⟨s, e, s'⟩))
    (run : Run step start history s) (along : O.Along C history) :
    O.Along P history ↔ O.Along Q history := by
  induction run with
  | nil => exact iff_of_true (Observer.along_nil O P) (Observer.along_nil O Q)
  | snoc earlier taken ih =>
      obtain ⟨before, last⟩ := Observer.along_snoc_iff.mp along
      have reached := Run.invariant_along initial preserved earlier before
      rw [Observer.along_snoc_iff, Observer.along_snoc_iff, ih before,
        agree _ _ _ _ last reached taken]

end Rules

end TransitionSystem
