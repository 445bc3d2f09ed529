import Mathlib.Logic.Function.Basic

/-!
One draft, edited over a store with keys.

A key is chosen and its value loaded into the draft; these are two actions, and
other actions may come between them. A save keeps the draft under the chosen key,
which need not be the key the draft was loaded for (`shown`). What is said of one
key here holds whatever happens to the others: `Undisturbed` is kept by every
action that spares the key. `Synced` is about the chosen key: the draft agrees with
the store but for what is marked as not loaded or not saved.
-/

namespace KeyedEditor

universe u v w

variable {κ : Type u} {ν : Type v} {δ : Type w}

/-- How a stored value is shown as a draft and what a draft stores. `blank` is shown
while no key is chosen. -/
structure Codec (ν : Type v) (δ : Type w) where
  blank : ν
  present : ν → δ
  keep : δ → ν

inductive Action (κ : Type u) (δ : Type w) where
  | choose (key : κ)
  | load
  | edit (draft : δ)
  | save
  | revert
  deriving DecidableEq, Repr

/-- `exposed` is the draft that was last loaded or saved; `revert` goes back to it. -/
@[ext] structure Editor (κ : Type u) (ν : Type v) (δ : Type w) where
  store : κ → ν
  chosen : Option κ
  draft : δ
  exposed : δ

section Actions

variable [DecidableEq κ] (C : Codec ν δ)

/-- The value of the chosen key. -/
def Editor.chosenValue (s : Editor κ ν δ) : ν := s.chosen.elim C.blank s.store

def Editor.apply (s : Editor κ ν δ) : Action κ δ → Editor κ ν δ
  | .choose key => { s with chosen := some key }
  | .load =>
      { s with
        draft := C.present (s.chosenValue C)
        exposed := C.present (s.chosenValue C) }
  | .edit draft => { s with draft }
  | .save =>
      { s with
        store := s.chosen.elim s.store fun key => Function.update s.store key (C.keep s.draft)
        exposed := s.draft }
  | .revert => { s with draft := s.exposed }

/-- Several actions, the first one first. -/
def Editor.applyAll (s : Editor κ ν δ) (actions : List (Action κ δ)) : Editor κ ν δ :=
  actions.foldl (Editor.apply C) s

/-- The key that the draft was last loaded for. -/
def shownAfter (s : Editor κ ν δ) (shown : Option κ) : Action κ δ → Option κ
  | .load => s.chosen
  | _ => shown

/-! ### One key -/

/-- The value of a key, with the draft and the exposed one keeping the same while
they are for that key. -/
structure Undisturbed (key : κ) (value : ν) (shown : Option κ) (s : Editor κ ν δ) : Prop where
  stored : s.store key = value
  draft : shown = some key → C.keep s.draft = value
  exposed : shown = some key → C.keep s.exposed = value

/-- The action does not edit the draft of this key so that another value would be
kept, and does not save the draft of another under it. -/
def Spares (key : κ) (shown : Option κ) (s : Editor κ ν δ) : Action κ δ → Prop
  | .edit draft => shown = some key → C.keep draft = C.keep s.draft
  | .save => s.chosen = some key → shown = some key
  | _ => True

variable {C} {key : κ} {value : ν} {shown : Option κ} {s : Editor κ ν δ} {action : Action κ δ}

/-- With a value that is shown so that the same is kept again, actions that spare a
key leave it undisturbed. -/
theorem Undisturbed.apply (legible : C.keep (C.present value) = value)
    (undisturbed : Undisturbed C key value shown s) (spares : Spares C key shown s action) :
    Undisturbed C key value (shownAfter s shown action) (s.apply C action) := by
  obtain ⟨stored, draft, exposed⟩ := undisturbed
  cases action with
  | choose other => exact ⟨stored, draft, exposed⟩
  | load =>
      have loaded (chosen : s.chosen = some key) :
          C.keep (C.present (s.chosenValue C)) = value := by
        rw [Editor.chosenValue, chosen, Option.elim_some, stored, legible]
      exact ⟨stored, loaded, loaded⟩
  | edit draft' => exact ⟨stored, fun isShown => (spares isShown).trans (draft isShown), exposed⟩
  | save =>
      refine ⟨?_, draft, draft⟩
      simp only [Editor.apply]
      cases chosen : s.chosen with
      | none => exact stored
      | some other =>
          rw [Option.elim_some]
          by_cases same : key = other
          · subst same
            rw [Function.update_self]
            exact draft (spares chosen)
          · rw [Function.update_of_ne same]
            exact stored
  | revert => exact ⟨stored, exposed, exposed⟩

/-! ### The chosen key -/

/-- Whether a key was chosen and nothing loaded since. -/
def unloadedAfter (unloaded : Prop) : Action κ δ → Prop
  | .choose _ => True
  | .load => False
  | _ => unloaded

variable (C) in
/-- Whether the draft was edited, so that another value would be kept, since it was
loaded, saved or taken back. -/
def unsavedAfter (s : Editor κ ν δ) (unsaved : Prop) : Action κ δ → Prop
  | .choose _ => unsaved
  | .edit draft => unsaved ∨ C.keep draft ≠ C.keep s.draft
  | _ => False

variable (C) in
/-- What the chosen key stores is exposed, and is what the draft would keep. -/
structure Synced (unloaded unsaved : Prop) (s : Editor κ ν δ) : Prop where
  exposed : ¬ unloaded → ∀ key, s.chosen = some key → C.keep s.exposed = s.store key
  draft : ¬ unloaded → ¬ unsaved → ∀ key, s.chosen = some key → C.keep s.draft = s.store key

variable {unloaded unloaded' unsaved unsaved' : Prop}

omit [DecidableEq κ] in
theorem Synced.mono (loaded : unloaded → unloaded') (saved : unsaved → unsaved')
    (synced : Synced C unloaded unsaved s) : Synced C unloaded' unsaved' s where
  exposed isLoaded := synced.exposed (mt loaded isLoaded)
  draft isLoaded isSaved := synced.draft (mt loaded isLoaded) (mt saved isSaved)

/-- If the value of the chosen key is shown so that the same is kept again, every action
leaves the draft in step with the store, or is marked. -/
theorem Synced.apply
    (legible : ∀ key, s.chosen = some key → C.keep (C.present (s.store key)) = s.store key)
    (synced : Synced C unloaded unsaved s) :
    Synced C (unloadedAfter unloaded action) (unsavedAfter C s unsaved action)
      (s.apply C action) := by
  obtain ⟨exposed, draft⟩ := synced
  cases action with
  | choose key => exact ⟨fun loaded => absurd trivial loaded, fun loaded => absurd trivial loaded⟩
  | load =>
      have loaded (key : κ) (chosen : s.chosen = some key) :
          C.keep (C.present (s.chosenValue C)) = s.store key := by
        rw [Editor.chosenValue, chosen, Option.elim_some]
        exact legible key chosen
      exact ⟨fun _ => loaded, fun _ _ => loaded⟩
  | edit text =>
      refine ⟨exposed, ?_⟩
      intro isLoaded isSaved key chosen
      obtain ⟨wasSaved, same⟩ := not_or.mp isSaved
      exact (not_not.mp same).trans (draft isLoaded wasSaved key chosen)
  | save =>
      have stored (key : κ) (chosen : s.chosen = some key) :
          C.keep s.draft = (s.apply C .save).store key := by
        simp only [Editor.apply, chosen, Option.elim_some, Function.update_self]
      exact ⟨fun _ => stored, fun _ _ => stored⟩
  | revert => exact ⟨exposed, fun isLoaded _ => exposed isLoaded⟩

end Actions

end KeyedEditor
