import Mathlib.Algebra.Order.Ring.Abs
import Mathlib.Logic.Function.Iterate
import Mathlib.Tactic.Linarith
import Phonotes.Keyboard

/-!
`NoteTakingViewController.swift` and `Main.storyboard`: layout passes.

Before each pass `viewWillLayoutSubviews` reads the frames of the pass before and moves
the same constant as the keyboard does, which calls for another pass. The constraints of
the storyboard decide the frames; those that the code's frames depend on are written out
here and solved. The results say that passes come to an end, and that the keyboard may
come and go any number of times, with passes whenever they are due, without a trace.
-/

namespace Phonotes

open TransitionSystem

/-- What a pass is given: the bounds of the view and the top of its safe area. -/
structure Geometry where
  bounds : CGSize
  safeAreaTop : Rat
  deriving DecidableEq, Repr

/-! ### The constraints of the storyboard -/

/-- The lengths that the storyboard's constraints are about. -/
structure Frames where
  scrollViewHeight : Rat
  contentViewHeight : Rat
  largePhotoImageViewHeight : Rat
  noteDetailTextViewTop : Rat
  noteDetailTextViewHeight : Rat
  bottomViewHeight : Rat
  deriving DecidableEq, Repr

attribute [ext] Frames

namespace Frames

/-- The required constraints, from the top of the safe area to the bottom of the view, and
down the content view: date, photo, title, detail and the view that fills the rest. -/
structure Satisfies (frames : Frames) (geometry : Geometry) (photoCollectionViewHeight
    contentViewHeight : Rat) : Prop where
  view : geometry.safeAreaTop + frames.scrollViewHeight + photoCollectionViewHeight + 24 =
    geometry.bounds.height
  contentView : frames.contentViewHeight = frames.scrollViewHeight + contentViewHeight
  aspect : frames.largePhotoImageViewHeight * 414 = geometry.bounds.width * 311
  top : frames.noteDetailTextViewTop = 9 + 21 + 9 + frames.largePhotoImageViewHeight + 13 + 33 + 7
  filled : frames.noteDetailTextViewTop + frames.noteDetailTextViewHeight + frames.bottomViewHeight =
    frames.contentViewHeight
  detailAtMost : frames.noteDetailTextViewHeight ≤ 120
  detail : 0 ≤ frames.noteDetailTextViewHeight
  bottom : 0 ≤ frames.bottomViewHeight

/-- The bottom view is to have height 70, with a lower priority: no frames that satisfy the
constraints come closer. -/
def Solves (self : Frames) (geometry : Geometry) (photoCollectionViewHeight
    contentViewHeight : Rat) : Prop :=
  self.Satisfies geometry photoCollectionViewHeight contentViewHeight ∧
    ∀ other : Frames, other.Satisfies geometry photoCollectionViewHeight contentViewHeight →
      |self.bottomViewHeight - 70| ≤ |other.bottomViewHeight - 70|

end Frames

namespace Geometry

/-- The top of the detail text view. -/
def detailTop (self : Geometry) : Rat := 92 + self.bounds.width * 311 / 414

/-- What is left of the content view for the detail text view and the view below it. -/
def room (self : Geometry) (photoCollectionViewHeight contentViewHeight : Rat) : Rat :=
  self.bounds.height - self.safeAreaTop - photoCollectionViewHeight - 24 + contentViewHeight -
    self.detailTop

/-- The height of the detail text view, of the room there is. -/
def detailHeight (room : Rat) : Rat := max 0 (min 120 (room - 70))

/-- The frames that a pass leaves. -/
def frames (self : Geometry) (photoCollectionViewHeight contentViewHeight : Rat) : Frames :=
  let scrollViewHeight := self.bounds.height - self.safeAreaTop - photoCollectionViewHeight - 24
  let room := self.room photoCollectionViewHeight contentViewHeight
  { scrollViewHeight
    contentViewHeight := scrollViewHeight + contentViewHeight
    largePhotoImageViewHeight := self.bounds.width * 311 / 414
    noteDetailTextViewTop := self.detailTop
    noteDetailTextViewHeight := detailHeight room
    bottomViewHeight := room - detailHeight room }

theorem detailHeight_cases (room : Rat) :
    room ≤ 70 ∧ detailHeight room = 0 ∨
      70 ≤ room ∧ room ≤ 190 ∧ detailHeight room = room - 70 ∨
      190 ≤ room ∧ detailHeight room = 120 := by
  unfold detailHeight
  rcases le_total room 70 with low | high
  · left
    refine ⟨low, ?_⟩
    rw [min_eq_right (by linarith), max_eq_left (by linarith)]
  · rcases le_total room 190 with between | above
    · right; left
      refine ⟨high, between, ?_⟩
      rw [min_eq_right (by linarith), max_eq_right (by linarith)]
    · right; right
      refine ⟨above, ?_⟩
      rw [min_eq_left (by linarith), max_eq_right (by norm_num)]

theorem detailHeight_mono {room room' : Rat} (more : room ≤ room') :
    detailHeight room ≤ detailHeight room' := by
  unfold detailHeight
  gcongr

theorem detailHeight_nonneg (room : Rat) : 0 ≤ detailHeight room := le_max_left _ _

theorem detailHeight_le (room : Rat) : detailHeight room ≤ 120 :=
  max_le (by norm_num) (min_le_left _ _)

theorem detailHeight_le_room {room : Rat} (roomy : 0 ≤ room) : detailHeight room ≤ room :=
  max_le roomy ((min_le_right _ _).trans (by linarith))

variable {self : Geometry} {collection extra : Rat}

@[simp] theorem frames_bottomViewHeight : (self.frames collection extra).bottomViewHeight =
    self.room collection extra - detailHeight (self.room collection extra) := rfl

theorem satisfies_frames (roomy : 0 ≤ self.room collection extra) :
    (self.frames collection extra).Satisfies self collection extra where
  view := by
    simp only [frames]
    ring
  contentView := rfl
  aspect := by
    simp only [frames]
    ring
  top := by
    simp only [frames, detailTop]
    ring
  filled := by
    simp only [frames, room]
    ring
  detailAtMost := detailHeight_le _
  detail := detailHeight_nonneg _
  bottom := sub_nonneg.mpr (detailHeight_le_room roomy)

/-- The detail text view and the view below it share the room. -/
theorem detail_add_bottom {frames : Frames} (satisfies : frames.Satisfies self collection extra) :
    frames.noteDetailTextViewHeight + frames.bottomViewHeight = self.room collection extra := by
  have view := satisfies.view
  have contentView := satisfies.contentView
  have aspect := satisfies.aspect
  have top := satisfies.top
  have filled := satisfies.filled
  simp only [room, detailTop]
  linarith

section Share

variable {room detail bottom : Rat} (shared : detail + bottom = room) (atMost : detail ≤ 120)
  (atLeast : 0 ≤ detail)

include shared atMost atLeast

/-- Of a share of the room, the view below has nothing closer to its height of 70. -/
theorem closest_bottom : |room - detailHeight room - 70| ≤ |bottom - 70| := by
  rcases detailHeight_cases room with ⟨low, height⟩ | ⟨-, -, height⟩ | ⟨high, height⟩
  · have below : bottom - 70 ≤ 0 := by linarith
    have least : room - 0 - 70 ≤ 0 := by linarith
    rw [height, abs_of_nonpos below, abs_of_nonpos least]
    linarith
  · rw [height, sub_sub_cancel, sub_self, abs_zero]
    exact abs_nonneg _
  · have above : 0 ≤ bottom - 70 := by linarith
    have most : 0 ≤ room - 120 - 70 := by linarith
    rw [height, abs_of_nonneg above, abs_of_nonneg most]
    linarith

theorem bottom_of_closest (close : |bottom - 70| ≤ |room - detailHeight room - 70|) :
    bottom = room - detailHeight room := by
  rcases detailHeight_cases room with ⟨low, height⟩ | ⟨-, -, height⟩ | ⟨high, height⟩
  · have below : bottom - 70 ≤ 0 := by linarith
    have least : room - 0 - 70 ≤ 0 := by linarith
    rw [height, abs_of_nonpos below, abs_of_nonpos least] at close
    linarith
  · rw [height, sub_sub_cancel, sub_self, abs_zero, abs_nonpos_iff] at close
    linarith
  · have above : 0 ≤ bottom - 70 := by linarith
    have most : 0 ≤ room - 120 - 70 := by linarith
    rw [height, abs_of_nonneg above, abs_of_nonneg most] at close
    linarith

end Share

/-- Where the constraints can be satisfied, these frames are their one solution. -/
theorem solves_iff (roomy : 0 ≤ self.room collection extra) {frames : Frames} :
    frames.Solves self collection extra ↔ frames = self.frames collection extra := by
  constructor
  · rintro ⟨satisfies, closest⟩
    have shared := detail_add_bottom satisfies
    have close := closest _ (satisfies_frames roomy)
    rw [frames_bottomViewHeight] at close
    have bottom := bottom_of_closest shared satisfies.detailAtMost satisfies.detail close
    have scrollView : frames.scrollViewHeight =
        self.bounds.height - self.safeAreaTop - collection - 24 := by
      linarith only [satisfies.view]
    have image : frames.largePhotoImageViewHeight = self.bounds.width * 311 / 414 := by
      linarith only [satisfies.aspect]
    have top : frames.noteDetailTextViewTop = 92 + self.bounds.width * 311 / 414 := by
      linarith only [satisfies.top, image]
    have detail : frames.noteDetailTextViewHeight =
        detailHeight (self.room collection extra) := by
      rw [eq_sub_of_add_eq shared, bottom, sub_sub_cancel]
    have contentView := satisfies.contentView
    rw [scrollView] at contentView
    exact Frames.ext scrollView contentView image top detail bottom
  · rintro rfl
    refine ⟨satisfies_frames roomy, ?_⟩
    intro other satisfies
    rw [frames_bottomViewHeight]
    exact closest_bottom (detail_add_bottom satisfies) satisfies.detailAtMost satisfies.detail

end Geometry

/-! ### A layout pass -/

/-- The layout of the screen: what the keyboard handlers see of it, the constant of
`photoCollectionViewHeightConstraint`, and the item size of the collection view. -/
structure ScreenLayout where
  keyboard : KeyboardLayout
  photoCollectionViewHeightConstraint : Rat := 162
  itemSize : CGSize
  deriving DecidableEq, Repr

namespace ScreenLayout

def minimumLineSpacing : Rat := 8.5

def detailTextViewMinHeight : Rat := 59

/-- The first half of `viewWillLayoutSubviews`: the size of the collection view and of its
items. A view of 667 points or less makes it smaller. -/
def setCollectionViewLayout (self : ScreenLayout) (bounds : CGSize) : ScreenLayout :=
  let self :=
    if bounds.height ≤ 667 then
      { self with
        keyboard := { self.keyboard with collectionViewHeight := bounds.height * 0.181 }
        photoCollectionViewHeightConstraint := bounds.height * 0.181 }
    else self
  let cellWidth := (bounds.width - minimumLineSpacing * 4) / 5
  { self with itemSize := ⟨cellWidth, self.keyboard.collectionViewHeight - 1⟩ }

/-- The second half: the content view grows by what the detail text view was short of in
the pass before. -/
def growContentView (self : ScreenLayout) : ScreenLayout :=
  let detailTextViewHeight := self.keyboard.noteDetailTextViewFrame.size.height
  if detailTextViewHeight < detailTextViewMinHeight then
    { self with
      keyboard := { self.keyboard with
        contentViewHeightConstraint := self.keyboard.contentViewHeightConstraint +
          (detailTextViewMinHeight - detailTextViewHeight) } }
  else self

def viewWillLayoutSubviews (self : ScreenLayout) (bounds : CGSize) : ScreenLayout :=
  (self.setCollectionViewLayout bounds).growContentView

/-- What the constraints make of the frames. -/
def layoutSubviews (self : ScreenLayout) (geometry : Geometry) : ScreenLayout :=
  let frames := geometry.frames self.photoCollectionViewHeightConstraint
    self.keyboard.contentViewHeightConstraint
  { self with
    keyboard := { self.keyboard with
      scrollViewFrame :=
        ⟨⟨0, geometry.safeAreaTop⟩, ⟨geometry.bounds.width, frames.scrollViewHeight⟩⟩
      noteDetailTextViewFrame :=
        ⟨⟨0, frames.noteDetailTextViewTop⟩,
          ⟨geometry.bounds.width, frames.noteDetailTextViewHeight⟩⟩ } }

/-- One pass. -/
def layoutPass (geometry : Geometry) (self : ScreenLayout) : ScreenLayout :=
  (self.viewWillLayoutSubviews geometry.bounds).layoutSubviews geometry

/-! ### What a pass does -/

variable {geometry : Geometry} {self s s' start : ScreenLayout}

/-- The height of the detail text view in the frames of the pass before. -/
def detailTextViewHeight (self : ScreenLayout) : Rat :=
  self.keyboard.noteDetailTextViewFrame.size.height

/-- The room that the constraints leave as they are now. -/
def room (self : ScreenLayout) (geometry : Geometry) : Rat :=
  geometry.room self.photoCollectionViewHeightConstraint
    self.keyboard.contentViewHeightConstraint

/-- What a detail text view of this height is short of. -/
def shortfall (height : Rat) : Rat := max 0 (detailTextViewMinHeight - height)

/-- The layout once the constant has been raised. -/
def raised (self : ScreenLayout) (by_ : Rat) : ScreenLayout :=
  { self with
    keyboard := { self.keyboard with
      contentViewHeightConstraint := self.keyboard.contentViewHeightConstraint + by_ } }

theorem raised_zero (self : ScreenLayout) : self.raised 0 = self := by
  simp [raised]

theorem growContentView_eq (self : ScreenLayout) :
    self.growContentView = self.raised (shortfall self.detailTextViewHeight) := by
  by_cases short : self.detailTextViewHeight < detailTextViewMinHeight
  · rw [shortfall, max_eq_right (sub_nonneg.mpr short.le)]
    exact if_pos short
  · rw [shortfall, max_eq_left (sub_nonpos.mpr (not_lt.mp short)), raised_zero]
    exact if_neg short

/-- The layout is what a pass leaves: the collection view has its size, and the frames
are those of the constraints. -/
structure Framed (geometry : Geometry) (s : ScreenLayout) : Prop where
  collection : s.setCollectionViewLayout geometry.bounds = s
  frames : s.layoutSubviews geometry = s

theorem framed_layoutPass (geometry : Geometry) (s : ScreenLayout) :
    Framed geometry (layoutPass geometry s) := by
  refine ⟨?_, rfl⟩
  simp only [layoutPass, viewWillLayoutSubviews, growContentView_eq]
  unfold setCollectionViewLayout
  split_ifs <;> rfl

/-- The height that the frames have is that of the room. -/
theorem Framed.height (framed : Framed geometry s) :
    s.detailTextViewHeight = Geometry.detailHeight (s.room geometry) :=
  (congrArg detailTextViewHeight framed.frames).symm

theorem Framed.layoutPass_eq (framed : Framed geometry s) :
    layoutPass geometry s =
      (s.raised (shortfall s.detailTextViewHeight)).layoutSubviews geometry := by
  rw [layoutPass, viewWillLayoutSubviews, framed.collection, growContentView_eq]

/-- Where the text view is tall enough a pass changes nothing. -/
theorem Framed.layoutPass_of_tall (framed : Framed geometry s)
    (tall : detailTextViewMinHeight ≤ s.detailTextViewHeight) : layoutPass geometry s = s := by
  rw [framed.layoutPass_eq, shortfall, max_eq_left (sub_nonpos.mpr tall), raised_zero,
    framed.frames]

theorem room_raised (self : ScreenLayout) (geometry : Geometry) (by_ : Rat) :
    (self.raised by_).room geometry = self.room geometry + by_ := by
  simp only [room, raised, Geometry.room]
  ring

/-! ### Passes come to an end -/

/-- The room after a pass, of the room before it. -/
def grown (room : Rat) : Rat := room + shortfall (Geometry.detailHeight room)

theorem Framed.room_layoutPass (framed : Framed geometry s) :
    (layoutPass geometry s).room geometry = grown (s.room geometry) := by
  rw [framed.layoutPass_eq, framed.height]
  exact room_raised s geometry _

/-- A text view that has no height yet grows by all it needs, of which the view below
takes what it lacks. -/
theorem grown_of_low {room : Rat} (low : room ≤ 70) : grown room = room + 59 := by
  have none : Geometry.detailHeight room = 0 := by
    rw [Geometry.detailHeight, min_eq_right (by linarith), max_eq_left (by linarith)]
  rw [grown, none, shortfall, sub_zero]
  rfl

theorem grown_of_high {room : Rat} (high : 70 ≤ room) : grown room = max room 129 := by
  rw [grown, shortfall, detailTextViewMinHeight]
  rcases Geometry.detailHeight_cases room with ⟨low, height⟩ | ⟨-, -, height⟩ | ⟨above, height⟩
  · obtain rfl : room = 70 := le_antisymm low high
    rw [height]
    norm_num
  · rw [height]
    rcases le_total room 129 with short | tall
    · rw [max_eq_right (by linarith), max_eq_right short]
      ring
    · rw [max_eq_left (by linarith), max_eq_left tall, add_zero]
  · rw [height, max_eq_left (by norm_num), max_eq_left (by linarith), add_zero]

/-- Three passes make enough room, and no more than that. -/
theorem grown_thrice {room : Rat} (roomy : 0 ≤ room) :
    grown (grown (grown room)) = max room 129 := by
  have enough : grown 129 = 129 := by
    rw [grown_of_high (by norm_num), max_self]
  rcases le_total 70 room with high | low
  · have tall : 70 ≤ max room 129 := le_max_of_le_left high
    rw [grown_of_high high, grown_of_high tall, grown_of_high (le_max_of_le_left tall),
      max_assoc, max_self, max_assoc, max_self]
  · rw [grown_of_low low, max_eq_right (by linarith)]
    rcases le_total 70 (room + 59) with high | stillLow
    · rw [grown_of_high high, max_eq_right (by linarith), enough]
    · rw [grown_of_low stillLow, grown_of_high (by linarith), max_eq_right (by linarith)]

/-- The layout has come to rest with the keyboard hidden: a pass has been made, the detail
text view is tall enough, and nothing is scrolled. -/
structure Settled (geometry : Geometry) (s : ScreenLayout) : Prop where
  framed : Framed geometry s
  tall : detailTextViewMinHeight ≤ s.detailTextViewHeight
  aligned : s.photoCollectionViewHeightConstraint = s.keyboard.collectionViewHeight
  unscrolled : s.keyboard.contentOffset = CGPoint.zero

theorem aligned_layoutPass
    (aligned : s.photoCollectionViewHeightConstraint = s.keyboard.collectionViewHeight) :
    (layoutPass geometry s).photoCollectionViewHeightConstraint =
      (layoutPass geometry s).keyboard.collectionViewHeight := by
  simp only [layoutPass, viewWillLayoutSubviews, growContentView_eq]
  unfold setCollectionViewLayout
  split_ifs with small
  · rfl
  · exact aligned

theorem contentOffset_layoutPass (geometry : Geometry) (s : ScreenLayout) :
    (layoutPass geometry s).keyboard.contentOffset = s.keyboard.contentOffset := by
  simp only [layoutPass, viewWillLayoutSubviews, growContentView_eq]
  unfold setCollectionViewLayout
  split_ifs <;> rfl

/-- A pass on frames of its own raises the constant by the room it makes. -/
theorem Framed.constant_layoutPass (framed : Framed geometry s) :
    (layoutPass geometry s).keyboard.contentViewHeightConstraint =
      s.keyboard.contentViewHeightConstraint + ((layoutPass geometry s).room geometry -
        s.room geometry) := by
  rw [framed.room_layoutPass, grown, add_sub_cancel_left, framed.layoutPass_eq, framed.height]
  rfl

/-- Where the constraints can be satisfied after a first pass, three more give the detail
text view the room it needs. -/
theorem room_of_passes (roomy : 0 ≤ (layoutPass geometry s).room geometry) :
    ((layoutPass geometry)^[4] s).room geometry =
      max ((layoutPass geometry s).room geometry) 129 := by
  let first := layoutPass geometry s
  have framed₁ : Framed geometry first := framed_layoutPass geometry s
  have framed₂ : Framed geometry (layoutPass geometry first) := framed_layoutPass geometry _
  have framed₃ : Framed geometry (layoutPass geometry (layoutPass geometry first)) :=
    framed_layoutPass geometry _
  change (layoutPass geometry (layoutPass geometry (layoutPass geometry first))).room geometry = _
  rw [framed₃.room_layoutPass, framed₂.room_layoutPass, framed₁.room_layoutPass,
    grown_thrice roomy]

theorem settled_fourth
    (aligned : s.photoCollectionViewHeightConstraint = s.keyboard.collectionViewHeight)
    (unscrolled : s.keyboard.contentOffset = CGPoint.zero)
    (roomy : 0 ≤ (layoutPass geometry s).room geometry) :
    Settled geometry ((layoutPass geometry)^[4] s) := by
  have framed : Framed geometry ((layoutPass geometry)^[4] s) := framed_layoutPass geometry _
  refine ⟨framed, ?_, ?_, ?_⟩
  · rw [framed.height, room_of_passes roomy]
    calc detailTextViewMinHeight = Geometry.detailHeight 129 := by decide +kernel
      _ ≤ Geometry.detailHeight (max ((layoutPass geometry s).room geometry) 129) :=
        Geometry.detailHeight_mono (le_max_right _ _)
  · exact aligned_layoutPass (aligned_layoutPass (aligned_layoutPass (aligned_layoutPass aligned)))
  · exact (contentOffset_layoutPass geometry _).trans <|
      (contentOffset_layoutPass geometry _).trans <|
        (contentOffset_layoutPass geometry _).trans <|
          (contentOffset_layoutPass geometry s).trans unscrolled

/-- Where the constraints can be satisfied, four passes bring the layout to rest: each one
more leaves it as it is, and the constant has been raised by what the room lacks for the
detail text view and the view below it, and no more. -/
theorem settled_of_passes
    (aligned : s.photoCollectionViewHeightConstraint = s.keyboard.collectionViewHeight)
    (unscrolled : s.keyboard.contentOffset = CGPoint.zero)
    (roomy : 0 ≤ (layoutPass geometry s).room geometry) :
    Settled geometry ((layoutPass geometry)^[4] s) ∧
      (∀ n, 4 ≤ n → (layoutPass geometry)^[n] s = (layoutPass geometry)^[4] s) ∧
      ((layoutPass geometry)^[4] s).keyboard.contentViewHeightConstraint =
        (layoutPass geometry s).keyboard.contentViewHeightConstraint +
          (max ((layoutPass geometry s).room geometry) 129 -
            (layoutPass geometry s).room geometry) := by
  have settled := settled_fourth aligned unscrolled roomy
  refine ⟨settled, ?_, ?_⟩
  · intro n atLeast
    induction n, atLeast using Nat.le_induction with
    | base => rfl
    | succ n _ ih =>
        rw [Function.iterate_succ_apply', ih]
        exact settled.framed.layoutPass_of_tall settled.tall
  · have second := (framed_layoutPass geometry s).constant_layoutPass
    have third := (framed_layoutPass geometry (layoutPass geometry s)).constant_layoutPass
    have fourth := (framed_layoutPass geometry
      (layoutPass geometry (layoutPass geometry s))).constant_layoutPass
    rw [← room_of_passes roomy]
    simp only [Function.iterate_succ_apply, Function.iterate_zero_apply]
    rw [fourth, third, second]
    ring

/-- The frames and constants that the storyboard was saved with. -/
def storyboard : ScreenLayout where
  keyboard :=
    { contentViewHeightConstraint := 0
      contentOffset := CGPoint.zero
      scrollViewFrame := ⟨⟨0, 44⟩, ⟨414, 666⟩⟩
      noteDetailTextViewFrame := ⟨⟨0, 403⟩, ⟨414, 120⟩⟩ }
  itemSize := ⟨108, 151⟩

/-- A phone on which the detail text view is short at first. -/
def smallPhone : Geometry := ⟨⟨320, 568⟩, 20⟩

theorem settled_of_passes_smallPhone :
    0 ≤ (layoutPass smallPhone storyboard).room smallPhone ∧
      Settled smallPhone ((layoutPass smallPhone)^[4] storyboard) ∧
      (∀ n, 4 ≤ n → (layoutPass smallPhone)^[n] storyboard =
        (layoutPass smallPhone)^[4] storyboard) ∧
      ((layoutPass smallPhone)^[4] storyboard).keyboard.contentViewHeightConstraint =
        (layoutPass smallPhone storyboard).keyboard.contentViewHeightConstraint +
          (max ((layoutPass smallPhone storyboard).room smallPhone) 129 -
            (layoutPass smallPhone storyboard).room smallPhone) := by
  have roomy : 0 ≤ (layoutPass smallPhone storyboard).room smallPhone := by decide +kernel
  exact ⟨roomy, settled_of_passes rfl rfl roomy⟩

/-! ### The keyboard comes and goes -/

/-- A notification of the keyboard, or a pass. -/
inductive LayoutEvent where
  | notification (n : Notification)
  | layoutPass
  deriving DecidableEq, Repr

def step (geometry : Geometry) (self : ScreenLayout) : LayoutEvent → Option ScreenLayout
  | .notification n => some { self with keyboard := self.keyboard.keyboardWillChange n }
  | .layoutPass => some (layoutPass geometry self)

/-- History: the height of the keyboard while it is visible. -/
def visible : Observer ScreenLayout LayoutEvent (Option Rat) where
  initial := none
  observe visible t :=
    match t.event with
    | .layoutPass => visible
    | .notification n =>
        match n.keyboardHeight, n.name with
        | none, _ => visible
        | some height, .keyboardWillShowNotification => some height
        | some _, .keyboardWillHideNotification => none

/-- The keyboard has a height, comes up while it is hidden, and goes with the height it came
up with. -/
def Regular (visible : Option Rat) (t : Transition ScreenLayout LayoutEvent) : Prop :=
  match t.event with
  | .layoutPass => True
  | .notification n =>
      n.keyboardHeight.isSome ∧ 0 ≤ n.keyboardHeight.getD 0 ∧
        if n.name = .keyboardWillShowNotification then visible = none
        else n.keyboardHeight = visible

instance : DecidableRel Regular := fun _ t =>
  match t with
  | ⟨_, .layoutPass, _⟩ => isTrue trivial
  | ⟨_, .notification _, _⟩ => inferInstanceAs (Decidable (_ ∧ _ ∧ ite _ _ _))

/-- The settled layout with a keyboard of this height over it: some passes have been made
since, or none. -/
def during (start : ScreenLayout) (keyboardHeight : Rat) (contentOffset : CGPoint)
    (detailTextViewHeight : Rat) : ScreenLayout :=
  { start with
    keyboard := { start.keyboard with
      contentViewHeightConstraint :=
        start.keyboard.contentViewHeightConstraint + keyboardHeight
      contentOffset
      noteDetailTextViewFrame :=
        { start.keyboard.noteDetailTextViewFrame with
          size := { start.keyboard.noteDetailTextViewFrame.size with
            height := detailTextViewHeight } } } }

theorem Settled.during_eq (settled : Settled geometry start) :
    start.during 0 CGPoint.zero start.detailTextViewHeight = start := by
  simp only [during, add_zero, ← settled.unscrolled]
  rfl

theorem setCollectionViewLayout_during (bounds : CGSize) (keyboardHeight : Rat)
    (contentOffset : CGPoint) (height : Rat) :
    (start.during keyboardHeight contentOffset height).setCollectionViewLayout bounds =
      (start.setCollectionViewLayout bounds).during keyboardHeight contentOffset height := by
  unfold setCollectionViewLayout
  split_ifs <;> rfl

theorem layoutSubviews_during (geometry : Geometry) (keyboardHeight : Rat)
    (contentOffset : CGPoint) (height : Rat) :
    (start.during keyboardHeight contentOffset height).layoutSubviews geometry =
      (start.layoutSubviews geometry).during keyboardHeight contentOffset
        (Geometry.detailHeight (start.room geometry + keyboardHeight)) := by
  have room : geometry.room start.photoCollectionViewHeightConstraint
      (start.keyboard.contentViewHeightConstraint + keyboardHeight) =
        start.room geometry + keyboardHeight := room_raised start geometry keyboardHeight
  rw [← room]
  rfl

/-- A pass while the keyboard is up, or hidden again. -/
theorem Settled.layoutPass_during (settled : Settled geometry start) (keyboardHeight : Rat)
    (contentOffset : CGPoint) {height : Rat} (tall : detailTextViewMinHeight ≤ height) :
    layoutPass geometry (start.during keyboardHeight contentOffset height) =
      start.during keyboardHeight contentOffset
        (Geometry.detailHeight (start.room geometry + keyboardHeight)) := by
  have enough : shortfall (start.during keyboardHeight contentOffset height).detailTextViewHeight
      = 0 := max_eq_left (sub_nonpos.mpr tall)
  rw [layoutPass, viewWillLayoutSubviews, setCollectionViewLayout_during,
    settled.framed.collection, growContentView_eq, enough, raised_zero, layoutSubviews_during,
    settled.framed.frames]

/-- What a keyboard of this height, and 20 points above it, would cover of the detail text
view. -/
def collapseSpace (self : KeyboardLayout) (keyboardHeight : Rat) : Rat :=
  keyboardHeight -
    (self.scrollViewFrame.size.height - self.noteDetailTextViewFrame.origin.y -
      self.noteDetailTextViewFrame.size.height + self.collectionViewHeight - 20)

theorem keyboardWillShow_eq (self : KeyboardLayout) (keyboardHeight : Rat) :
    self.keyboardWillShow keyboardHeight =
      { self with
        contentViewHeightConstraint := self.contentViewHeightConstraint + keyboardHeight
        contentOffset :=
          if collapseSpace self keyboardHeight ≥ 0 then
            ⟨0, collapseSpace self keyboardHeight + 10⟩
          else self.contentOffset } := by
  by_cases covered : collapseSpace self keyboardHeight ≥ 0
  · rw [if_pos covered]
    exact if_pos covered
  · rw [if_neg covered]
    exact if_neg covered

/-- The keyboard comes up: some offset is scrolled to. -/
theorem show_during (start : ScreenLayout) (keyboardHeight : Rat) (contentOffset : CGPoint)
    (height : Rat) :
    let keyboard := (start.during 0 contentOffset height).keyboard.keyboardWillShow keyboardHeight
    ({ start.during 0 contentOffset height with keyboard } : ScreenLayout) =
      start.during keyboardHeight keyboard.contentOffset height := by
  intro keyboard
  simp only [keyboard, keyboardWillShow_eq, during, add_zero]

/-- The keyboard goes: nothing is scrolled. -/
theorem hide_during (start : ScreenLayout) (keyboardHeight : Rat) (contentOffset : CGPoint)
    (height : Rat) :
    ({ start.during keyboardHeight contentOffset height with
        keyboard := (start.during keyboardHeight contentOffset height).keyboard.keyboardWillHide
          keyboardHeight } : ScreenLayout) =
      start.during 0 CGPoint.zero height := by
  simp only [during, KeyboardLayout.keyboardWillHide, add_sub_cancel_right, add_zero]

/-- What has become of the settled layout: the height of the keyboard is all that was added
to the constant, and the detail text view is no smaller. -/
structure Undisturbed (geometry : Geometry) (start : ScreenLayout) (visible : Option Rat)
    (s : ScreenLayout) : Prop where
  during : ∃ contentOffset height, s = start.during (visible.getD 0) contentOffset height ∧
    start.detailTextViewHeight ≤ height ∧ (visible = none → contentOffset = CGPoint.zero)
  nonneg : 0 ≤ visible.getD 0

theorem undisturbed_step (settled : Settled geometry start) {shown : Option Rat}
    {e : LayoutEvent} (undisturbed : Undisturbed geometry start shown s)
    (regular : Regular shown ⟨s, e, s'⟩) (taken : s.step geometry e = some s') :
    Undisturbed geometry start (visible.observe shown ⟨s, e, s'⟩) s' := by
  obtain ⟨⟨contentOffset, height, rfl, taller, unscrolled⟩, nonneg⟩ := undisturbed
  cases e with
  | layoutPass =>
      obtain rfl := Option.some.inj taken
      refine ⟨⟨contentOffset, _, settled.layoutPass_during _ _ (settled.tall.trans taller), ?_,
        unscrolled⟩, nonneg⟩
      rw [settled.framed.height]
      exact Geometry.detailHeight_mono (le_add_of_nonneg_right nonneg)
  | notification n =>
      obtain rfl := Option.some.inj taken
      obtain ⟨hasHeight, positive, proper⟩ := regular
      obtain ⟨shownHeight, carried⟩ := Option.isSome_iff_exists.mp hasHeight
      obtain ⟨name, keyboardFrame⟩ := n
      obtain ⟨frame, rfl, rfl⟩ := Option.map_eq_some_iff.mp carried
      cases name with
      | keyboardWillShowNotification =>
          obtain rfl : shown = none := proper
          exact ⟨⟨_, height, show_during start frame.size.height contentOffset height, taller,
            by simp [visible, Notification.keyboardHeight]⟩, positive⟩
      | keyboardWillHideNotification =>
          obtain rfl : some frame.size.height = shown := proper
          exact ⟨⟨CGPoint.zero, height, hide_during start frame.size.height contentOffset height,
            taller, fun _ => rfl⟩, le_refl 0⟩

theorem Settled.undisturbed (settled : Settled geometry start) :
    Undisturbed geometry start visible.initial start :=
  ⟨⟨CGPoint.zero, _, settled.during_eq.symm, le_refl _, fun _ => rfl⟩, le_refl 0⟩

/-- However often the keyboard comes and goes over a settled layout, with whatever heights,
and whenever passes are made: the constant is up by the height of the keyboard and nothing
else, the detail text view keeps its least height, and once the keyboard is hidden a pass
brings the settled layout back. -/
theorem settled_of_run {history : List (Transition ScreenLayout LayoutEvent)}
    (settled : Settled geometry start) (run : Run (step geometry) start history s)
    (regular : visible.Along Regular history) :
    s.keyboard.contentViewHeightConstraint =
        start.keyboard.contentViewHeightConstraint + (visible.after history).getD 0 ∧
      detailTextViewMinHeight ≤ s.detailTextViewHeight ∧
      (visible.after history = none → layoutPass geometry s = start) := by
  have undisturbed : Undisturbed geometry start (visible.after history) s :=
    Run.invariant_along settled.undisturbed
      (fun _ _ _ _ regular before taken => undisturbed_step settled before regular taken) run
      regular
  obtain ⟨⟨contentOffset, height, same, taller, unscrolled⟩, -⟩ := undisturbed
  refine ⟨by rw [same]; rfl, ?_, ?_⟩
  · rw [same]
    exact settled.tall.trans taller
  · intro hidden
    rw [same, settled.layoutPass_during _ _ (settled.tall.trans taller), unscrolled hidden, hidden,
      Option.getD_none, add_zero, ← settled.framed.height]
    exact settled.during_eq

/-- How far the bottom of the detail text view is above a keyboard of this height. -/
def clearance (self : ScreenLayout) (geometry : Geometry) (keyboardHeight : Rat) : Rat :=
  (geometry.bounds.height - keyboardHeight) -
    (geometry.safeAreaTop + (self.keyboard.noteDetailTextViewFrame.origin.y +
      self.keyboard.noteDetailTextViewFrame.size.height) - self.keyboard.contentOffset.y)

/-- A keyboard that comes up leaves 44 points free, or has the view scrolled until 54 are. -/
theorem Settled.clearance_show (settled : Settled geometry start) (height keyboardHeight : Rat) :
    let keyboard := (start.during 0 CGPoint.zero height).keyboard.keyboardWillShow keyboardHeight
    44 ≤ ({ start.during 0 CGPoint.zero height with keyboard } : ScreenLayout).clearance geometry
      keyboardHeight := by
  have scrollView : start.keyboard.scrollViewFrame.size.height =
      geometry.bounds.height - geometry.safeAreaTop - start.keyboard.collectionViewHeight - 24 := by
    rw [← settled.aligned]
    exact (congrArg (fun layout => layout.keyboard.scrollViewFrame.size.height)
      settled.framed.frames).symm
  have space : collapseSpace (start.during 0 CGPoint.zero height).keyboard keyboardHeight =
      keyboardHeight - (geometry.bounds.height - geometry.safeAreaTop -
        start.keyboard.noteDetailTextViewFrame.origin.y - height - 44) := by
    simp only [collapseSpace, during, scrollView]
    ring
  intro keyboard
  simp only [keyboard, clearance, keyboardWillShow_eq, space]
  split_ifs with covered
  · simp only [during]
    linarith
  · simp only [during, CGPoint.zero]
    linarith

/-- While the keyboard is up, a detail text view of the settled height would be 44 points
above it. It is so itself, or a pass has let it grow into the room that the keyboard's
height makes. -/
structure Uncovered (geometry : Geometry) (start : ScreenLayout) (visible : Option Rat)
    (s : ScreenLayout) : Prop where
  undisturbed : Undisturbed geometry start visible s
  settledHeight : ∀ keyboardHeight, visible = some keyboardHeight →
    44 ≤ s.clearance geometry keyboardHeight +
      (s.detailTextViewHeight - start.detailTextViewHeight)
  grown : ∀ keyboardHeight, visible = some keyboardHeight →
    44 ≤ s.clearance geometry keyboardHeight ∨
      s.detailTextViewHeight = Geometry.detailHeight (start.room geometry + keyboardHeight)

theorem clearance_during (keyboardHeight : Rat) (contentOffset : CGPoint) (height : Rat) :
    (start.during keyboardHeight contentOffset height).clearance geometry keyboardHeight +
        (height - start.detailTextViewHeight) =
      (start.during keyboardHeight contentOffset start.detailTextViewHeight).clearance geometry
        keyboardHeight := by
  simp only [clearance, during]
  ring

theorem uncovered_step (settled : Settled geometry start) {shown : Option Rat} {e : LayoutEvent}
    (uncovered : Uncovered geometry start shown s) (regular : Regular shown ⟨s, e, s'⟩)
    (taken : s.step geometry e = some s') :
    Uncovered geometry start (visible.observe shown ⟨s, e, s'⟩) s' := by
  have undisturbed := undisturbed_step settled uncovered.undisturbed regular taken
  obtain ⟨⟨⟨contentOffset, height, rfl, taller, unscrolled⟩, -⟩, settledHeight, -⟩ := uncovered
  cases e with
  | layoutPass =>
      obtain rfl := Option.some.inj taken
      have passed := settled.layoutPass_during (shown.getD 0) contentOffset
        (settled.tall.trans taller)
      refine ⟨undisturbed, ?_, ?_⟩
      · rintro keyboardHeight rfl
        have before := settledHeight keyboardHeight rfl
        rw [passed]
        exact (before.trans_eq (clearance_during _ _ _)).trans_eq (clearance_during _ _ _).symm
      · rintro keyboardHeight rfl
        rw [passed]
        exact Or.inr rfl
  | notification n =>
      obtain rfl := Option.some.inj taken
      obtain ⟨hasHeight, -, proper⟩ := regular
      obtain ⟨shownHeight, carried⟩ := Option.isSome_iff_exists.mp hasHeight
      obtain ⟨name, keyboardFrame⟩ := n
      obtain ⟨frame, rfl, rfl⟩ := Option.map_eq_some_iff.mp carried
      cases name with
      | keyboardWillShowNotification =>
          obtain rfl : shown = none := proper
          have clear := settled.clearance_show height frame.size.height
          have sameHeight : ({ start.during 0 CGPoint.zero height with
              keyboard := (start.during 0 CGPoint.zero height).keyboard.keyboardWillShow
                frame.size.height } : ScreenLayout).detailTextViewHeight = height :=
            congrArg detailTextViewHeight (show_during start frame.size.height CGPoint.zero height)
          rw [unscrolled rfl] at undisturbed ⊢
          refine ⟨undisturbed, ?_, ?_⟩
          · rintro _ ⟨⟩
            exact clear.trans
              (le_add_of_nonneg_right (sub_nonneg.mpr (taller.trans_eq sameHeight.symm)))
          · rintro _ ⟨⟩
            exact Or.inl clear
      | keyboardWillHideNotification => exact ⟨undisturbed, nofun, nofun⟩

theorem Settled.uncovered (settled : Settled geometry start) :
    Uncovered geometry start visible.initial start := ⟨settled.undisturbed, nofun, nofun⟩

/-- When the keyboard comes up over the settled layout, the bottom of the detail text view
as it is framed then is 44 points above it or more. The passes that follow lower it by no
more than what the text view grows by, which leaves at most 17 points of it covered. -/
theorem clearance_of_run {history : List (Transition ScreenLayout LayoutEvent)}
    (settled : Settled geometry start) (run : Run (step geometry) start history s)
    (regular : visible.Along Regular history) :
    (∀ t ∈ history, ∀ n keyboardHeight, t.event = .notification n →
        n.name = .keyboardWillShowNotification → n.keyboardHeight = some keyboardHeight →
        44 ≤ t.after.clearance geometry keyboardHeight) ∧
      ∀ keyboardHeight, visible.after history = some keyboardHeight →
        44 - (Geometry.detailHeight (start.room geometry + keyboardHeight) -
            start.detailTextViewHeight) ≤ s.clearance geometry keyboardHeight ∧
          -17 ≤ s.clearance geometry keyboardHeight := by
  constructor
  · rw [← Observer.along_const_iff visible]
    refine Run.along_of_invariant settled.undisturbed
      (fun _ _ _ _ regular before taken => undisturbed_step settled before regular taken) ?_ run
      regular
    rintro shown s e s' regular ⟨⟨contentOffset, height, rfl, -, unscrolled⟩, -⟩ taken n
      keyboardHeight rfl isShow carried
    obtain rfl := Option.some.inj taken
    obtain ⟨name, keyboardFrame⟩ := n
    obtain rfl : name = .keyboardWillShowNotification := isShow
    obtain ⟨frame, rfl, rfl⟩ := Option.map_eq_some_iff.mp carried
    obtain rfl : shown = none := regular.2.2
    rw [unscrolled rfl]
    exact settled.clearance_show height frame.size.height
  · intro keyboardHeight isVisible
    have uncovered : Uncovered geometry start (visible.after history) s :=
      Run.invariant_along settled.uncovered
        (fun _ _ _ _ regular before taken => uncovered_step settled before regular taken) run
        regular
    have nonneg : 0 ≤ keyboardHeight := by
      have isNonneg := uncovered.undisturbed.nonneg
      rwa [isVisible] at isNonneg
    have grows : start.detailTextViewHeight ≤
        Geometry.detailHeight (start.room geometry + keyboardHeight) := by
      rw [settled.framed.height]
      exact Geometry.detailHeight_mono (le_add_of_nonneg_right nonneg)
    have bound : 44 - (Geometry.detailHeight (start.room geometry + keyboardHeight) -
        start.detailTextViewHeight) ≤ s.clearance geometry keyboardHeight := by
      rcases uncovered.grown keyboardHeight isVisible with clear | height
      · linarith
      · have settledHeight := uncovered.settledHeight keyboardHeight isVisible
        rw [height] at settledHeight
        linarith
    refine ⟨bound, ?_⟩
    have most := Geometry.detailHeight_le (start.room geometry + keyboardHeight)
    have least : (59 : Rat) ≤ start.detailTextViewHeight := settled.tall
    linarith

/-- A keyboard comes, a pass is made, it goes and another one comes. -/
def twoKeyboards : List LayoutEvent :=
  [.notification (KeyboardLayout.keyboard .keyboardWillShowNotification 253), .layoutPass,
    .notification (KeyboardLayout.keyboard .keyboardWillHideNotification 253),
    .notification (KeyboardLayout.keyboard .keyboardWillShowNotification 216)]

theorem settled_smallPhone : Settled smallPhone ((layoutPass smallPhone)^[4] storyboard) :=
  settled_fourth rfl rfl (by decide +kernel)

/-- While the second keyboard is up the constant holds its height; once it has gone a pass
restores the layout. -/
theorem settled_of_run_twoKeyboards :
    (∃ history s, play (step smallPhone) ((layoutPass smallPhone)^[4] storyboard) twoKeyboards =
        some (history, s) ∧
      s.keyboard.contentViewHeightConstraint =
        ((layoutPass smallPhone)^[4] storyboard).keyboard.contentViewHeightConstraint + 216 ∧
      detailTextViewMinHeight ≤ s.detailTextViewHeight) ∧
    ∃ history s, play (step smallPhone) ((layoutPass smallPhone)^[4] storyboard)
        (twoKeyboards ++
          [.notification (KeyboardLayout.keyboard .keyboardWillHideNotification 216)]) =
        some (history, s) ∧
      layoutPass smallPhone s = (layoutPass smallPhone)^[4] storyboard := by
  constructor
  · have plays : play (step smallPhone) ((layoutPass smallPhone)^[4] storyboard) twoKeyboards =
      some (_, _) := rfl
    obtain ⟨constant, tall, -⟩ :=
      settled_of_run settled_smallPhone (run_of_play plays) (by decide)
    exact ⟨_, _, plays, constant, tall⟩
  · have plays : play (step smallPhone) ((layoutPass smallPhone)^[4] storyboard)
        (twoKeyboards ++
          [.notification (KeyboardLayout.keyboard .keyboardWillHideNotification 216)]) =
      some (_, _) := rfl
    obtain ⟨-, -, restored⟩ := settled_of_run settled_smallPhone (run_of_play plays) (by decide)
    exact ⟨_, _, plays, restored rfl⟩

/-- The first keyboard is up and a pass has been made. -/
theorem clearance_of_run_twoKeyboards :
    ∃ history s, play (step smallPhone) ((layoutPass smallPhone)^[4] storyboard)
        (twoKeyboards.take 2) = some (history, s) ∧
      (∀ t ∈ history, ∀ n keyboardHeight, t.event = .notification n →
        n.name = .keyboardWillShowNotification → n.keyboardHeight = some keyboardHeight →
        44 ≤ t.after.clearance smallPhone keyboardHeight) ∧
      s.detailTextViewHeight = 120 ∧ -17 ≤ s.clearance smallPhone 253 := by
  have plays : play (step smallPhone) ((layoutPass smallPhone)^[4] storyboard)
    (twoKeyboards.take 2) = some (_, _) := rfl
  obtain ⟨shown, later⟩ := clearance_of_run settled_smallPhone (run_of_play plays) (by decide)
  exact ⟨_, _, plays, shown, by decide +kernel, (later 253 (by decide)).2⟩

end ScreenLayout

end Phonotes
