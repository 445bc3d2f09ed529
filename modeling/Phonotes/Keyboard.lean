import Mathlib.Tactic.Ring
import Mathlib.Tactic.SplitIfs
import Phonotes.Library.TransitionSystem
import Phonotes.Platform

/-!
`NoteTakingViewController.swift`: the keyboard.

The handlers of the keyboard notifications share nothing with the rest of the
app, so they are a system of their own. The constant of the content view's height
constraint is an accumulator: a show adds its height, a hide takes its own off,
and neither knows what was added before. `heights` is the history that does.
-/

namespace Phonotes

open TransitionSystem

/-- The two notifications that `addKeyboardObserver` registers for. -/
inductive NotificationName where
  | keyboardWillShowNotification
  | keyboardWillHideNotification
  deriving DecidableEq, Repr

/-- `keyboardFrame` is the `keyboardFrameEndUserInfoKey` of the user info, `nil` when
it is missing or no `NSValue`. -/
structure Notification where
  name : NotificationName
  keyboardFrame : Option CGRect
  deriving DecidableEq, Repr

namespace Notification

/-- The height that a notification carries. -/
def keyboardHeight (self : Notification) : Option Rat :=
  self.keyboardFrame.map fun frame => frame.size.height

end Notification

/-- What the keyboard handlers read and move: the constant of the height
constraint, the offset of the scroll view, and the frames that a layout pass has
left. -/
structure KeyboardLayout where
  contentViewHeightConstraint : Rat
  contentOffset : CGPoint
  scrollViewFrame : CGRect
  noteDetailTextViewFrame : CGRect
  collectionViewHeight : Rat := 162
  deriving DecidableEq, Repr

namespace KeyboardLayout

/-- `keyboardWillShow(_:keyboardHeight:)`; the animation blocks run at once. -/
def keyboardWillShow (self : KeyboardLayout) (keyboardHeight : Rat) : KeyboardLayout :=
  let self :=
    { self with
      contentViewHeightConstraint := self.contentViewHeightConstraint + keyboardHeight }
  let distanceToBottom :=
    self.scrollViewFrame.size.height - self.noteDetailTextViewFrame.origin.y -
      self.noteDetailTextViewFrame.size.height + self.collectionViewHeight - 20
  let collapseSpace := keyboardHeight - distanceToBottom
  if collapseSpace ≥ 0 then { self with contentOffset := ⟨0, collapseSpace + 10⟩ } else self

/-- `keyboardWillHide(_:keyboardHeight:)` -/
def keyboardWillHide (self : KeyboardLayout) (keyboardHeight : Rat) : KeyboardLayout :=
  { self with
    contentViewHeightConstraint := self.contentViewHeightConstraint - keyboardHeight
    contentOffset := CGPoint.zero }

/-- `keyboardWillChange(notification:)` -/
def keyboardWillChange (self : KeyboardLayout) (notification : Notification) :
    KeyboardLayout :=
  match notification.keyboardFrame with
  | none => self
  | some keyboardSize =>
      let keyboardHeight := keyboardSize.size.height
      if notification.name = .keyboardWillShowNotification then
        self.keyboardWillShow keyboardHeight
      else self.keyboardWillHide keyboardHeight

/-- One notification; no layout pass comes in between. -/
def step (self : KeyboardLayout) (notification : Notification) : Option KeyboardLayout :=
  some (self.keyboardWillChange notification)

/-! ### The constant -/

variable {start s s' : KeyboardLayout} {n : Notification}

@[simp] theorem keyboardWillShow_contentViewHeightConstraint (self : KeyboardLayout)
    (height : Rat) :
    (self.keyboardWillShow height).contentViewHeightConstraint =
      self.contentViewHeightConstraint + height := by
  simp only [keyboardWillShow]
  split_ifs <;> rfl

@[simp] theorem keyboardWillHide_contentViewHeightConstraint (self : KeyboardLayout)
    (height : Rat) :
    (self.keyboardWillHide height).contentViewHeightConstraint =
      self.contentViewHeightConstraint - height := rfl

/-- What a notification adds to the constant. -/
def added (n : Notification) : Rat :=
  match n.name with
  | .keyboardWillShowNotification => n.keyboardHeight.getD 0
  | .keyboardWillHideNotification => - n.keyboardHeight.getD 0

theorem contentViewHeightConstraint_of_step (taken : s.step n = some s') :
    s'.contentViewHeightConstraint = s.contentViewHeightConstraint + added n := by
  obtain rfl := Option.some.inj taken
  obtain ⟨name, keyboardFrame⟩ := n
  cases keyboardFrame with
  | none => cases name <;> simp [keyboardWillChange, added, Notification.keyboardHeight]
  | some frame =>
      cases name with
      | keyboardWillShowNotification =>
          simp [keyboardWillChange, added, Notification.keyboardHeight]
      | keyboardWillHideNotification =>
          simp [keyboardWillChange, added, Notification.keyboardHeight, sub_eq_add_neg]

/-! ### What the keyboard has done -/

/-- The height of the latest show, whether the keyboard is visible, and the residue:
the heights of the shows that another one replaced, less those of the hides that
came when it was hidden already. -/
structure Heights where
  latest : Option Rat
  visible : Bool
  residue : Rat

namespace Heights

/-- The height of the keyboard as it is now. -/
def current (self : Heights) : Rat := if self.visible then self.latest.getD 0 else 0

/-- A show replaces the one that is visible, if any. -/
def shown (self : Heights) (height : Rat) : Heights where
  latest := some height
  visible := true
  residue := self.residue + self.current

def hidden (self : Heights) (height : Rat) : Heights where
  latest := self.latest
  visible := false
  residue := if self.visible then self.residue else self.residue - height

def notified (self : Heights) (n : Notification) : Heights :=
  match n.keyboardHeight, n.name with
  | none, _ => self
  | some height, .keyboardWillShowNotification => self.shown height
  | some height, .keyboardWillHideNotification => self.hidden height

end Heights

/-- History: what the keyboard has done. -/
def heights : Observer KeyboardLayout Notification Heights where
  initial := ⟨none, false, 0⟩
  observe h t := h.notified t.event

/-- Every notification has a height, and a hide that of the latest show. -/
def Posted (h : Heights) (t : Transition KeyboardLayout Notification) : Prop :=
  t.event.keyboardHeight.isSome ∧
    (t.event.name = .keyboardWillHideNotification → t.event.keyboardHeight = h.latest)

/-- A hide puts the constant back to its value at the start. -/
def LeavesNoResidue (start : KeyboardLayout) (t : Transition KeyboardLayout Notification) :
    Prop :=
  t.event.name = .keyboardWillHideNotification →
    t.after.contentViewHeightConstraint = start.contentViewHeightConstraint

/-- At a hide the residue is zero. -/
def Balanced (h : Heights) (t : Transition KeyboardLayout Notification) : Prop :=
  t.event.name = .keyboardWillHideNotification → (h.notified t.event).residue = 0

/-- The constant is what it was, with the residue and the height of the keyboard. -/
theorem constant_step {h : Heights} (posted : Posted h ⟨s, n, s'⟩)
    (before : s.contentViewHeightConstraint =
      start.contentViewHeightConstraint + h.residue + h.current)
    (taken : s.step n = some s') :
    s'.contentViewHeightConstraint =
      start.contentViewHeightConstraint + (h.notified n).residue + (h.notified n).current := by
  rw [contentViewHeightConstraint_of_step taken, before]
  obtain ⟨hasHeight, latest⟩ := posted
  obtain ⟨height, carried⟩ := Option.isSome_iff_exists.mp hasHeight
  dsimp only at latest carried
  cases named : n.name with
  | keyboardWillShowNotification =>
      simp only [added, Heights.notified, named, carried, Heights.shown, Heights.current,
        Option.getD_some, if_true]
      ring
  | keyboardWillHideNotification =>
      have same : h.latest = some height := (latest named).symm.trans carried
      cases visible : h.visible with
      | true =>
          simp only [added, Heights.notified, named, carried, Heights.hidden, Heights.current,
            visible, same, Option.getD_some, if_true, Bool.false_eq_true, if_false]
          ring
      | false =>
          simp only [added, Heights.notified, named, carried, Heights.hidden, Heights.current,
            visible, Option.getD_some, Bool.false_eq_true, if_false]
          ring

theorem leavesNoResidue_iff_balanced {h : Heights} (posted : Posted h ⟨s, n, s'⟩)
    (before : s.contentViewHeightConstraint =
      start.contentViewHeightConstraint + h.residue + h.current)
    (taken : s.step n = some s') : LeavesNoResidue start ⟨s, n, s'⟩ ↔ Balanced h ⟨s, n, s'⟩ := by
  have after := constant_step posted before taken
  apply imp_congr_right
  intro named
  obtain ⟨height, carried⟩ := Option.isSome_iff_exists.mp posted.1
  dsimp only at named carried
  have gone : (h.notified n).current = 0 := by
    simp only [Heights.notified, named, carried, Heights.hidden, Heights.current,
      Bool.false_eq_true, if_false]
  rw [after, gone, add_zero, add_eq_left]

/-- Every hide puts the constant back exactly when at every hide the heights that
were replaced by another show, less those taken off twice, add up to zero. -/
theorem leavesNoResidue_iff {history : List (Transition KeyboardLayout Notification)}
    (run : Run step start history s) (posted : heights.Along Posted history) :
    (∀ t ∈ history, LeavesNoResidue start t) ↔ heights.Along Balanced history := by
  rw [← Observer.along_const_iff heights]
  refine Run.along_congr (I := fun h reached => reached.contentViewHeightConstraint =
    start.contentViewHeightConstraint + h.residue + h.current) ?_ ?_ ?_ run posted
  · simp [heights, Heights.current]
  · intro h reached n next allowed before taken
    exact constant_step allowed before taken
  · intro h reached n next allowed before taken
    exact leavesNoResidue_iff_balanced allowed before taken

instance : DecidableRel Posted := fun _ _ => inferInstanceAs (Decidable (_ ∧ (_ → _)))

instance : DecidableRel Balanced := fun _ _ => inferInstanceAs (Decidable (_ → _))

/-- Shows come while the keyboard is hidden, and hides while it is visible. -/
def Alternates (h : Heights) (t : Transition KeyboardLayout Notification) : Prop :=
  h.visible = true ↔ t.event.name = .keyboardWillHideNotification

theorem residue_of_alternates {h : Heights} {t : Transition KeyboardLayout Notification}
    (clean : h.residue = 0) (alternates : Alternates h t) :
    (h.notified t.event).residue = 0 := by
  unfold Alternates at alternates
  cases carried : t.event.keyboardHeight with
  | none => simpa only [Heights.notified, carried] using clean
  | some height =>
      cases named : t.event.name with
      | keyboardWillShowNotification =>
          have hidden : h.visible = false := by simpa [named] using alternates
          simp [Heights.notified, carried, named, Heights.shown, Heights.current, hidden, clean]
      | keyboardWillHideNotification =>
          have visible : h.visible = true := alternates.mpr named
          simp [Heights.notified, carried, named, Heights.hidden, visible, clean]

/-- As long as shows and hides alternate there is no residue. -/
theorem balanced_of_alternating {history : List (Transition KeyboardLayout Notification)}
    (alternates : heights.Along Alternates history) :
    (heights.after history).residue = 0 ∧ heights.Along Balanced history := by
  induction history using List.reverseRecOn with
  | nil => exact ⟨rfl, Observer.along_nil heights Balanced⟩
  | append_singleton history t ih =>
      obtain ⟨before, last⟩ := Observer.along_snoc_iff.mp alternates
      obtain ⟨clean, balanced⟩ := ih before
      have stays := residue_of_alternates clean last
      rw [Observer.after_snoc]
      exact ⟨stays, Observer.along_snoc_iff.mpr ⟨balanced, fun _ => stays⟩⟩

/-- A phone's screen with the keyboard hidden. -/
def phone : KeyboardLayout where
  contentViewHeightConstraint := 0
  contentOffset := CGPoint.zero
  scrollViewFrame := ⟨⟨0, 0⟩, ⟨320, 406⟩⟩
  noteDetailTextViewFrame := ⟨⟨0, 320⟩, ⟨320, 86⟩⟩

/-- The keyboard comes up, or goes, with this height. -/
def keyboard (name : NotificationName) (height : Rat) : Notification :=
  ⟨name, some ⟨⟨0, 568 - height⟩, ⟨320, height⟩⟩⟩

theorem leavesNoResidue_iff_shownTwice :
    ∃ history s, play step phone [keyboard .keyboardWillShowNotification 253,
        keyboard .keyboardWillHideNotification 253,
        keyboard .keyboardWillShowNotification 216,
        keyboard .keyboardWillHideNotification 216] = some (history, s) ∧
      ∀ t ∈ history, LeavesNoResidue phone t := by
  have plays : play step phone [keyboard .keyboardWillShowNotification 253,
      keyboard .keyboardWillHideNotification 253,
      keyboard .keyboardWillShowNotification 216,
      keyboard .keyboardWillHideNotification 216] = some (_, _) := rfl
  exact ⟨_, _, plays, (leavesNoResidue_iff (run_of_play plays) (by decide)).mpr
    (by decide +kernel)⟩

/-- A keyboard that changes its height while it is up leaves the first height
behind. -/
theorem exists_residue :
    ∃ history s, play step phone [keyboard .keyboardWillShowNotification 216,
        keyboard .keyboardWillShowNotification 253,
        keyboard .keyboardWillHideNotification 253] = some (history, s) ∧
      heights.Along Posted history ∧ phone.contentViewHeightConstraint = 0 ∧
      s.contentViewHeightConstraint = 216 ∧ ¬ ∀ t ∈ history, LeavesNoResidue phone t := by
  have plays : play step phone [keyboard .keyboardWillShowNotification 216,
      keyboard .keyboardWillShowNotification 253,
      keyboard .keyboardWillHideNotification 253] = some (_, _) := rfl
  refine ⟨_, _, plays, by decide, rfl, by decide +kernel, ?_⟩
  intro clean
  exact absurd (clean _ (List.mem_of_mem_getLast? rfl) rfl) (by decide +kernel)

end KeyboardLayout

end Phonotes
