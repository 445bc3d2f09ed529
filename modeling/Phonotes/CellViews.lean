import Phonotes.CollectionView
import Phonotes.Highlights
import Phonotes.Pictures
import Phonotes.SerialUse

/-!
`PhotoPreviewCollectionViewCell.swift`, and the cells on screen.

The collection view shows a cell for each row in sight and reuses those that have
gone out of sight, so what a cell shows is what it was last configured with. The
code keeps such a cell current by asking for its row to be reloaded. `Current`
says how far that goes: until a reload is asked for, the indicator and the border
are those of the view model, and only the load of `viewWillAppear` replaces a
picture behind a cell's back.
-/

namespace Phonotes

open TransitionSystem NoteTakingViewModel

/-! ### PhotoPreviewCollectionViewCell -/

structure UIColor where
  red : Rat
  green : Rat
  blue : Rat
  alpha : Rat
  deriving DecidableEq, Repr

/-- `rgb(red:green:blue:alpha:)`, with its default alpha. -/
def UIColor.rgb (red green blue : Rat) : UIColor := ⟨red / 255, green / 255, blue / 255, 1⟩

def Colors.primaryColor : UIColor := .rgb 255 84 84

/-- The properties of a cell that its code assigns, as they are in a cell made from
the storyboard. -/
structure PhotoPreviewCollectionViewCell where
  image : Option UIImage := none
  borderWidth : Rat := 0
  borderColor : UIColor := ⟨0, 0, 0, 1⟩
  noteIndicatorIsHidden : Bool := false
  noteIndicatorCornerRadius : Rat := 0
  deriving DecidableEq, Repr

namespace PhotoPreviewCollectionViewCell

def setBorder (self : PhotoPreviewCollectionViewCell) : PhotoPreviewCollectionViewCell :=
  { self with borderWidth := 2, borderColor := Colors.primaryColor }

def removeBorder (self : PhotoPreviewCollectionViewCell) : PhotoPreviewCollectionViewCell :=
  { self with borderWidth := 0 }

/-- `configCell(cellViewModel:indexPath:)`. The index path is not used. -/
def configCell (self : PhotoPreviewCollectionViewCell)
    (cellViewModel : Option NoteTakingPhotoCellViewModel) (_indexPath : IndexPath) :
    PhotoPreviewCollectionViewCell :=
  match cellViewModel with
  | none => self
  | some cellViewModel =>
      let self :=
        { self with
          image := cellViewModel.photo
          noteIndicatorIsHidden := !cellViewModel.hasNote
          noteIndicatorCornerRadius := 2 }
      if cellViewModel.isSelected then self.setBorder else self

def prepareForReuse (self : PhotoPreviewCollectionViewCell) : PhotoPreviewCollectionViewCell :=
  self.removeBorder

end PhotoPreviewCollectionViewCell

/-- What is to be seen of a cell. -/
structure Appearance where
  picture : Option UIImage
  indicator : Bool
  border : Option UIColor
  deriving DecidableEq, Repr

/-- A border of no width is not seen, whatever its color. -/
def PhotoPreviewCollectionViewCell.appearance (self : PhotoPreviewCollectionViewCell) :
    Appearance where
  picture := self.image
  indicator := !self.noteIndicatorIsHidden
  border := if self.borderWidth = 0 then none else some self.borderColor

/-- How a cell view model is to look. -/
def NoteTakingPhotoCellViewModel.appearance (self : NoteTakingPhotoCellViewModel) :
    Appearance where
  picture := self.photo
  indicator := self.hasNote
  border := if self.isSelected then some Colors.primaryColor else none

/-- A cell without a border, new or prepared for reuse, looks as configured, whatever
it showed before. -/
theorem PhotoPreviewCollectionViewCell.appearance_configCell
    {self : PhotoPreviewCollectionViewCell} (plain : self.borderWidth = 0)
    (cellViewModel : NoteTakingPhotoCellViewModel) (indexPath : IndexPath) :
    (self.configCell (some cellViewModel) indexPath).appearance = cellViewModel.appearance := by
  cases selected : cellViewModel.isSelected with
  | true =>
      simp [configCell, selected, setBorder, appearance, NoteTakingPhotoCellViewModel.appearance]
  | false =>
      simp [configCell, selected, plain, appearance, NoteTakingPhotoCellViewModel.appearance]

/-! ### The collection view -/

/-- A cell on display. Besides the cell there is what its code does not read: the cell
view model it was configured with, whether its row was asked to be reloaded since,
and whether the load of `viewWillAppear` was delivered for its row since. -/
structure DisplayedCell where
  cell : PhotoPreviewCollectionViewCell
  reference : CellReference
  reloadAsked : Bool := false
  photoReplaced : Bool := false

/-- The app with the cells on display, by row, and those waiting for reuse. -/
structure Screen where
  app : App
  cells : Nat → Option DisplayedCell := fun _ => none
  reusable : List PhotoPreviewCollectionViewCell := []

inductive ScreenEvent where
  | callback (event : Event)
  /-- The collection view asks for the cell of a row, to show it or to reload it. A
  waiting cell is reused, or a new one made. -/
  | cellForItemAt (indexPath : IndexPath) (thumbnail : ImageReply) (reused : Option Nat)
  /-- The cell of a row goes out of sight. -/
  | didEndDisplaying (row : Nat)
  deriving DecidableEq, Repr

/-- The call asks for this row to be reloaded. -/
def UICall.reloads (row : Nat) : UICall → Bool
  | .reloadData _ => true
  | .reloadItems indexPath _ _ => decide (indexPath.item = row)
  | _ => false

/-- The event delivers the load of `viewWillAppear` for this row. -/
def App.replacesPhoto (s : App) (row : Nat) : Event → Bool
  | .largeImageLoaded i _ _ =>
      match s.pendingLoads[i]? with
      | some load =>
          decide (load.completion = .viewWillAppear) && decide (load.indexPath.item = row)
      | none => false
  | _ => false

namespace Screen

/-- `dequeueReusableCell(withReuseIdentifier:for:)`, with the cells left waiting. -/
def dequeueReusableCell (self : Screen) (reused : Option Nat) :
    Option (PhotoPreviewCollectionViewCell × List PhotoPreviewCollectionViewCell) :=
  match reused with
  | none => some ({}, self.reusable)
  | some i =>
      (self.reusable[i]?).map fun cell => (cell.prepareForReuse, self.reusable.eraseIdx i)

/-- `collectionView(_:cellForItemAt:)` -/
def cellForItemAt (self : Screen) (indexPath : IndexPath) (thumbnail : ImageReply)
    (reused : Option Nat) : Option Screen :=
  (self.dequeueReusableCell reused).map fun dequeued =>
    let (viewModel, reference) :=
      self.app.viewModel.getCellViewModel self.app.noteManager indexPath thumbnail
    let cell := dequeued.1.configCell (viewModel.dereference reference) indexPath
    { app := { self.app with viewModel }
      cells := Function.update self.cells indexPath.row (some { cell, reference })
      reusable := dequeued.2 ++ ((self.cells indexPath.row).map DisplayedCell.cell).toList }

/-- A callback other than a request for a cell, with the reloads it asks for. -/
def callback [DateFormatter] (self : Screen) (event : Event) : Option Screen :=
  (self.app.step event).map fun app =>
    { self with
      app
      cells := fun row => (self.cells row).map fun displayed =>
        { displayed with
          reloadAsked := displayed.reloadAsked ||
            (App.callsIn ⟨self.app, event, app⟩).any (UICall.reloads row)
          photoReplaced := displayed.photoReplaced || self.app.replacesPhoto row event } }

def step [DateFormatter] (self : Screen) : ScreenEvent → Option Screen
  | .callback (.cellForItemAt _ _) => none
  | .callback event => self.callback event
  | .cellForItemAt indexPath thumbnail reused =>
      if self.app.raised.isSome then none else self.cellForItemAt indexPath thumbnail reused
  | .didEndDisplaying row =>
      some { self with
        cells := Function.update self.cells row none
        reusable := self.reusable ++ ((self.cells row).map DisplayedCell.cell).toList }

/-- The screen at launch, before the collection view has asked for a cell. -/
def launched (launch : Launch) : Screen where
  app := launch.app

end Screen

/-! ### What a displayed cell shows -/

/-- A displayed cell shows the flags of its row's cached view model, and its picture if
none was delivered behind its back; or it shows the placeholder of a row whose
thumbnail was not delivered, with the border of the selected row. -/
def App.Current (s : App) (row : Nat) (displayed : DisplayedCell) : Prop :=
  match displayed.reference with
  | .cached other =>
      other = row ∧ ∃ cellViewModel, s.viewModel.cellViewModels row = some cellViewModel ∧
        displayed.cell.appearance.indicator = cellViewModel.hasNote ∧
        displayed.cell.appearance.border = cellViewModel.appearance.border ∧
        (displayed.photoReplaced = false →
          displayed.cell.appearance.picture = cellViewModel.photo)
  | .detached cellViewModel =>
      displayed.cell.appearance = cellViewModel.appearance ∧ cellViewModel.hasNote = false ∧
        (cellViewModel.isSelected = true ↔ row = s.viewModel.selectedIndexPath.item)

/-! ### What a callback leaves of a row that it does not reload -/

namespace NoteTakingViewModel

variable {β : Type*} {property : NoteTakingPhotoCellViewModel → β}
  {self : NoteTakingViewModel} {row : Nat} {value : β}

/-- Asking for a cell and highlighting it is not seen through another property of the
cells that are cached. -/
theorem map_highlight
    (unchanged : ∀ cell selected, property { cell with isSelected := selected } = property cell)
    (noteManager : NoteManager) (indexPath : IndexPath) (reply : ImageReply) (selected : Bool)
    (cached : (self.cellViewModels row).map property = some value) :
    ((self.highlight noteManager indexPath reply selected).cellViewModels row).map property =
      some value := by
  obtain ⟨cell, held, rfl⟩ := Option.map_eq_some_iff.mp cached
  have asked := getCellViewModel_keeps noteManager indexPath reply held
  simp only [highlight]
  cases (self.getCellViewModel noteManager indexPath reply).2 with
  | detached other =>
      simp only [setIsSelected, asked, Option.map_some]
  | cached other =>
      simp only [setIsSelected]
      refine (map_assigned (fun cell => unchanged cell selected) other row).trans ?_
      rw [asked, Option.map_some]

end NoteTakingViewModel

namespace App

variable {s s' : App} {e : Event} {row : Nat}

theorem hasNote_didSelectCompletion (self : App) (indexPath : IndexPath) (cells : CellReplies)
    {flag : Bool}
    (cached : (self.viewModel.cellViewModels row).map
      NoteTakingPhotoCellViewModel.hasNote = some flag) :
    ((self.didSelectCompletion indexPath cells).viewModel.cellViewModels row).map
      NoteTakingPhotoCellViewModel.hasNote = some flag := by
  rw [didSelectCompletion_viewModel]
  apply map_highlight fun _ _ => rfl
  apply map_highlight fun _ _ => rfl
  exact cached

theorem hasNote_loadedViewModel [DateFormatter] (self : App) (load : PendingLoad)
    (image : ImageReply) (row : Nat) :
    ((self.loadedViewModel load image).cellViewModels row).map
        NoteTakingPhotoCellViewModel.hasNote =
      (self.viewModel.cellViewModels row).map NoteTakingPhotoCellViewModel.hasNote := by
  simp only [loadedViewModel, largeImageLoaded_eq]
  apply map_assigned
  intro cell
  rfl

/-- A cached cell stays, with its flag or that of a save through its row. -/
theorem hasNote_of_cached [DateFormatter] (stepped : Stepped s e s')
    {cell : NoteTakingPhotoCellViewModel} (cached : s.viewModel.cellViewModels row = some cell) :
    (s'.viewModel.cellViewModels row).map NoteTakingPhotoCellViewModel.hasNote =
      some (s.nextFlag e row cell.hasNote) := by
  have had : (s.viewModel.cellViewModels row).map NoteTakingPhotoCellViewModel.hasNote =
      some cell.hasNote := by rw [cached, Option.map_some]
  cases touched : s.touchesCells e with
  | false =>
      rw [cellViewModels_of_untouched touched stepped,
        nextFlag_of_unedited (endsEditing_of_untouched touched)]
      exact had
  | true =>
      cases stepped with
      | tapUnselectable _ _ =>
          rw [nextFlag_of_unedited rfl]
          exact hasNote_didSelectCompletion _ _ _ had
      | @largeImageLoaded i load image cells pending =>
          rw [nextFlag_of_unedited rfl, largeImageLoaded_eq_completion]
          have loaded := (hasNote_loadedViewModel
            { s with pendingLoads := s.pendingLoads.eraseIdx i } load image row).trans had
          cases load.completion with
          | viewWillAppear => exact loaded
          | didSelectItemAt => exact hasNote_didSelectCompletion _ _ _ loaded
      | cellForItemAt =>
          rw [nextFlag_of_unedited rfl]
          simp only [App.cellForItemAt, getCellViewModel_keeps _ _ _ cached, Option.map_some]
      | endedEditing ended saved =>
          have stays : s'.viewModel.pictureAt row = s.viewModel.pictureAt row :=
            saved.map_cells (fun _ _ => rfl) row
          simp only [pictureAt, cached, Option.map_some] at stays
          obtain ⟨next, held, -⟩ := Option.map_eq_some_iff.mp stays
          obtain ⟨old, was, -, flag⟩ := saved.cells ended held
          obtain rfl := Option.some.inj (cached.symm.trans was)
          rw [held, Option.map_some, flag]
      | tapIgnored shown => simp [touchesCells, shown] at touched
      | tapUnfetched _ found => simp [touchesCells, found] at touched
      | tapSelected _ _ found => simp [touchesCells, found] at touched
      | _ => cases touched

/-- The event has this row reloaded. -/
def reloads (s : App) (row : Nat) (e : Event) : Bool := (s.callsOn e).any (UICall.reloads row)

/-- A displayed cell once the event has been handled. -/
def seen (s : App) (e : Event) (row : Nat) (displayed : DisplayedCell) : DisplayedCell :=
  { displayed with
    reloadAsked := displayed.reloadAsked || s.reloads row e
    photoReplaced := displayed.photoReplaced || s.replacesPhoto row e }

theorem reloads_of_mem {indexPath : IndexPath} (member : indexPath ∈ s.reloadedRows e) :
    s.reloads indexPath.item e = true := by
  have asked := reloadItems_mem_callsOn_iff.mpr ⟨member, rfl, rfl⟩
  refine List.any_eq_true.mpr ⟨_, asked, ?_⟩
  simp [UICall.reloads]

/-- The completion of a tap reloads the two rows whose highlight it moves. -/
theorem reloadedRows_of_completes {new : IndexPath} {cells : CellReplies}
    (completed : s.completes e = some (new, cells)) :
    s.reloadedRows e = [s.viewModel.selectedIndexPath, new] := by
  cases e with
  | didSelectItemAt indexPath thumbnail replies =>
      simp only [completes] at completed
      split_ifs at completed with immediate
      cases completed
      simp [reloadedRows, immediate]
  | largeImageLoaded i image replies =>
      cases pending : s.pendingLoads[i]? with
      | none => simp [completes, pending] at completed
      | some load =>
          simp only [completes, pending] at completed
          split_ifs at completed with tapped
          cases completed
          simp [reloadedRows, pending, tapped]
  | _ => cases completed

/-- A save through the selected row reloads it when its cell is cached. -/
theorem selected_mem_reloadedRows {call : SaveNoteCall} (writes : s.writesNote e = some call)
    (cached : s.viewModel.SelectedCellCached) :
    s.viewModel.selectedIndexPath ∈ s.reloadedRows e := by
  have saved : s.viewModel.selectedIndexPath ∈ s.savedRow e := by
    simp [savedRow, writes, cached]
  cases ended : e.endsEditing with
  | none => simp [writesNote_of_unedited ended] at writes
  | some commit =>
      cases e with
      | textFieldDidEndEditing outcome => exact saved
      | textViewDidEndEditing outcome => exact saved
      | _ => cases ended

section Unreloaded

variable (still : s.reloads row e = false)
include still

theorem item_ne_of_mem_reloadedRows {indexPath : IndexPath}
    (member : indexPath ∈ s.reloadedRows e) : row ≠ indexPath.item := by
  rintro rfl
  simp [reloads_of_mem member] at still

theorem nextFlag_of_not_reloaded (cached : (s.viewModel.cellViewModels row).isSome)
    (flag : Bool) : s.nextFlag e row flag = flag := by
  unfold nextFlag
  cases writes : s.writesNote e with
  | none => rfl
  | some call =>
      refine if_neg ?_
      intro selected
      subst selected
      exact item_ne_of_mem_reloadedRows still (selected_mem_reloadedRows writes cached) rfl

theorem nextHighlight_of_not_reloaded
    (unasked : ∀ indexPath thumbnail, e ≠ .cellForItemAt indexPath thumbnail) :
    s.nextHighlight e row = s.viewModel.highlightAt row := by
  cases completed : s.completes e with
  | some completion =>
      obtain ⟨new, cells⟩ := completion
      have rows := reloadedRows_of_completes completed
      have notNew : row ≠ new.item := item_ne_of_mem_reloadedRows still (by simp [rows])
      have notPrevious : row ≠ s.viewModel.selectedIndexPath.item :=
        item_ne_of_mem_reloadedRows still (by simp [rows])
      simp only [nextHighlight, completed, completedHighlight, notNew, notPrevious, false_and,
        if_false]
  | none =>
      cases e with
      | cellForItemAt indexPath thumbnail => exact absurd rfl (unasked indexPath thumbnail)
      | _ => simp only [nextHighlight, completed]

theorem nextPicture_of_not_reloaded (unreplaced : s.replacesPhoto row e = false)
    (picture : Option UIImage) : s.nextPicture e row picture = picture := by
  cases e with
  | largeImageLoaded i image cells =>
      simp only [nextPicture]
      cases pending : s.pendingLoads[i]? with
      | none => rfl
      | some load =>
          refine if_neg ?_
          intro captured
          cases completion : load.completion with
          | viewWillAppear => simp [replacesPhoto, pending, completion, captured] at unreplaced
          | didSelectItemAt =>
              have member : load.indexPath ∈ s.reloadedRows (.largeImageLoaded i image cells) := by
                simp [reloadedRows, pending, completion]
              exact item_ne_of_mem_reloadedRows still member captured
  | _ => rfl

/-- The selection neither comes to the row nor leaves it. -/
theorem selected_iff_of_not_reloaded [DateFormatter] (stepped : Stepped s e s') :
    row = s'.viewModel.selectedIndexPath.item ↔ row = s.viewModel.selectedIndexPath.item := by
  rw [selectedIndexPath_of_completes stepped]
  cases completed : s.completes e with
  | none => rfl
  | some completion =>
      obtain ⟨new, cells⟩ := completion
      have rows := reloadedRows_of_completes completed
      exact iff_of_false (item_ne_of_mem_reloadedRows still (by simp [rows]))
        (item_ne_of_mem_reloadedRows still (by simp [rows]))

/-- The cell view model of a row that is not reloaded stays, apart from a picture
that `viewWillAppear` replaces. -/
theorem cached_of_not_reloaded [DateFormatter] (stepped : Stepped s e s')
    (unasked : ∀ indexPath thumbnail, e ≠ .cellForItemAt indexPath thumbnail)
    {cell : NoteTakingPhotoCellViewModel} (cached : s.viewModel.cellViewModels row = some cell) :
    ∃ next, s'.viewModel.cellViewModels row = some next ∧ next.hasNote = cell.hasNote ∧
      next.isSelected = cell.isSelected ∧
      (s.replacesPhoto row e = false → next.photo = cell.photo) := by
  have flag := hasNote_of_cached stepped cached
  rw [nextFlag_of_not_reloaded still (by simp [cached])] at flag
  obtain ⟨next, held, hasNote⟩ := Option.map_eq_some_iff.mp flag
  refine ⟨next, held, hasNote, ?_, ?_⟩
  · have highlight := highlightAt_of_stepped stepped row
    rw [nextHighlight_of_not_reloaded still unasked] at highlight
    simpa [highlightAt, held, cached] using highlight
  · intro unreplaced
    have had : s.viewModel.pictureAt row = some cell.photo := by simp [pictureAt, cached]
    have picture := pictureAt_of_stepped stepped had
    rw [nextPicture_of_not_reloaded still unreplaced] at picture
    simpa [pictureAt, held] using picture

end Unreloaded

end App

/-- The callback of the app that an event of the screen is. -/
def ScreenEvent.event : ScreenEvent → Option Event
  | .callback event => some event
  | .cellForItemAt indexPath thumbnail _ => some (.cellForItemAt indexPath thumbnail)
  | .didEndDisplaying _ => none

namespace Screen

variable {s s' : Screen} {row : Nat} {displayed : DisplayedCell}

/-! ### What a step can do -/

/-- `Stepped s e s'`: one way in which a screen takes a step. -/
inductive Stepped [DateFormatter] (s : Screen) : ScreenEvent → Screen → Prop where
  | called {event : Event} {app : App} :
      (∀ indexPath thumbnail, event ≠ .cellForItemAt indexPath thumbnail) →
      s.app.step event = some app →
      Stepped s (.callback event)
        { s with
          app
          cells := fun row => (s.cells row).map (s.app.seen event row) }
  | drawn {indexPath : IndexPath} {thumbnail : ImageReply} {reused : Option Nat} {s' : Screen} :
      s.app.raised = none → s.cellForItemAt indexPath thumbnail reused = some s' →
      Stepped s (.cellForItemAt indexPath thumbnail reused) s'
  | hidden {row : Nat} :
      Stepped s (.didEndDisplaying row)
        { s with
          cells := Function.update s.cells row none
          reusable := s.reusable ++ ((s.cells row).map DisplayedCell.cell).toList }

theorem stepped_of_step [DateFormatter] {e : ScreenEvent} (taken : s.step e = some s') :
    Stepped s e s' := by
  cases e with
  | didEndDisplaying row =>
      obtain rfl := Option.some.inj taken
      exact .hidden
  | cellForItemAt indexPath thumbnail reused =>
      cases raised : s.app.raised with
      | some exception => simp [step, raised] at taken
      | none =>
          simp only [step, raised, Option.isSome_none, Bool.false_eq_true, if_false] at taken
          exact .drawn raised taken
  | callback event =>
      have asked : (∃ indexPath thumbnail, event = .cellForItemAt indexPath thumbnail) ∨
          s.callback event = some s' := by
        cases event with
        | cellForItemAt indexPath thumbnail => exact Or.inl ⟨indexPath, thumbnail, rfl⟩
        | _ => exact Or.inr taken
      rcases asked with ⟨indexPath, thumbnail, rfl⟩ | called
      · cases taken
      · obtain ⟨app, ran, rfl⟩ := Option.map_eq_some_iff.mp called
        have calls := App.callsIn_of_stepped (App.stepped_of_step ran).2
        have unasked : ∀ indexPath thumbnail, event ≠ .cellForItemAt indexPath thumbnail := by
          rintro indexPath thumbnail rfl
          cases taken
        have seen : s.app.seen event = fun row displayed =>
            { displayed with
              reloadAsked := displayed.reloadAsked ||
                (App.callsIn ⟨s.app, event, app⟩).any (UICall.reloads row)
              photoReplaced := displayed.photoReplaced || s.app.replacesPhoto row event } := by
          funext row displayed
          simp only [App.seen, App.reloads, calls]
        have outcome := Stepped.called unasked ran
        rw [seen] at outcome
        exact outcome

/-- What the transitions of the screen are for the app. -/
def appHistory (history : List (Transition Screen ScreenEvent)) : List (Transition App Event) :=
  history.filterMap fun t => t.event.event.map fun event => ⟨t.before.app, event, t.after.app⟩

/-- The collection view leaves the app to its callbacks. -/
theorem app_of_stepped [DateFormatter] {e : ScreenEvent} (stepped : Stepped s e s') :
    match e.event with
    | some event => s.app.step event = some s'.app
    | none => s'.app = s.app := by
  cases stepped with
  | called _ ran => exact ran
  | hidden => rfl
  | @drawn indexPath thumbnail reused _ raised answered =>
      obtain ⟨dequeued, -, rfl⟩ := Option.map_eq_some_iff.mp answered
      have ran : s.app.step (.cellForItemAt indexPath thumbnail) =
          some (s.app.cellForItemAt indexPath thumbnail) := by
        simp [App.step, raised]
      exact ran

/-- A run of the screen is a run of the app. -/
theorem run_app [DateFormatter] {launch : Launch}
    {history : List (Transition Screen ScreenEvent)}
    (run : Run step (launched launch) history s) : launch.Run (appHistory history) s.app := by
  induction run with
  | nil => exact .nil
  | @snoc history s s' e _ taken ih =>
      have ran := app_of_stepped (stepped_of_step taken)
      rw [appHistory, List.filterMap_append, ← appHistory]
      cases called : e.event with
      | none =>
          simp only [called] at ran
          simpa [called, ran] using ih
      | some event =>
          simp only [called] at ran
          simpa [called] using ih.snoc ran

/-- The cell a row is given has no border, wherever it comes from. -/
theorem borderWidth_dequeued {reused : Option Nat}
    {dequeued : PhotoPreviewCollectionViewCell × List PhotoPreviewCollectionViewCell}
    (given : s.dequeueReusableCell reused = some dequeued) : dequeued.1.borderWidth = 0 := by
  cases reused with
  | none =>
      obtain rfl := Option.some.inj given
      rfl
  | some i =>
      obtain ⟨cell, -, rfl⟩ := Option.map_eq_some_iff.mp given
      rfl

/-! ### Displayed cells are current -/

/-- Every displayed cell whose row was not asked to be reloaded is current. -/
def Drawn (s : Screen) : Prop :=
  ∀ row displayed, s.cells row = some displayed → displayed.reloadAsked = false →
    s.app.Current row displayed

theorem drawn_launched (launch : Launch) : Drawn (launched launch) := by
  intro row displayed onScreen
  cases onScreen

/-- A callback that does not have the row reloaded leaves its cell current. -/
theorem current_called [DateFormatter] {app app' : App} {event : Event}
    (current : app.Current row displayed)
    (unasked : ∀ indexPath thumbnail, event ≠ .cellForItemAt indexPath thumbnail)
    (ran : app.step event = some app') (still : app.reloads row event = false) :
    app'.Current row (app.seen event row displayed) := by
  have stepped := (App.stepped_of_step ran).2
  unfold App.Current at current ⊢
  simp only [App.seen]
  cases refers : displayed.reference with
  | cached other =>
      simp only [refers] at current
      obtain ⟨rfl, viewModel, held, indicator, border, picture⟩ := current
      obtain ⟨next, heldNext, hasNote, isSelected, photo⟩ :=
        App.cached_of_not_reloaded still stepped unasked held
      refine ⟨rfl, next, heldNext, indicator.trans hasNote.symm, ?_, ?_⟩
      · rw [border]
        simp only [NoteTakingPhotoCellViewModel.appearance, isSelected]
      · intro unreplaced
        obtain ⟨before, now⟩ := Bool.or_eq_false_iff.mp unreplaced
        exact (picture before).trans (photo now).symm
  | detached viewModel =>
      simp only [refers] at current
      obtain ⟨looks, noNote, selected⟩ := current
      exact ⟨looks, noNote,
        selected.trans (App.selected_iff_of_not_reloaded still stepped).symm⟩

section Asked

variable {viewModel : NoteTakingViewModel} {noteManager : NoteManager} {indexPath : IndexPath}
  {thumbnail : ImageReply}

/-- Asking for a cell leaves those of the other rows current. -/
theorem current_asked {app : App} (current : app.Current row displayed)
    (indexPath : IndexPath) (thumbnail : ImageReply) :
    (app.cellForItemAt indexPath thumbnail).Current row displayed := by
  unfold App.Current at current ⊢
  cases refers : displayed.reference with
  | cached other =>
      simp only [refers] at current ⊢
      obtain ⟨same, viewModel, held, shows⟩ := current
      exact ⟨same, viewModel, getCellViewModel_keeps _ _ _ held, shows⟩
  | detached viewModel =>
      simp only [refers] at current ⊢
      rw [(App.cellForItemAt_redrawn ..).selectedIndexPath]
      exact current

/-- A cell that is configured for a row is current. -/
theorem current_configured {app : App} {cell : PhotoPreviewCollectionViewCell}
    (plain : cell.borderWidth = 0) (indexPath : IndexPath) (thumbnail : ImageReply) :
    (app.cellForItemAt indexPath thumbnail).Current indexPath.row
      { cell := cell.configCell
          ((app.cellForItemAt indexPath thumbnail).viewModel.dereference
            (app.viewModel.getCellViewModel app.noteManager indexPath thumbnail).2) indexPath
        reference := (app.viewModel.getCellViewModel app.noteManager indexPath thumbnail).2 } := by
  by_cases fetches : app.viewModel.Fetches indexPath thumbnail
  · obtain ⟨asset, -, got⟩ := getCellViewModel_of_fetches app.noteManager fetches
    simp only [App.cellForItemAt, got, dereference, Function.update_self]
    refine ⟨rfl, _, Function.update_self .., ?_⟩
    rw [PhotoPreviewCollectionViewCell.appearance_configCell plain]
    exact ⟨rfl, rfl, fun _ => rfl⟩
  · simp only [App.cellForItemAt, getCellViewModel_of_not_fetches _ fetches, dereference]
    refine ⟨PhotoPreviewCollectionViewCell.appearance_configCell plain _ indexPath, rfl, ?_⟩
    simp only [NoteTakingPhotoCellViewModel.init, decide_eq_true_eq]
    refine ⟨congrArg IndexPath.item, fun same => ?_⟩
    by_contra apart
    exact IndexPath.item_ne_of_ne apart same

end Asked

theorem drawn_step [DateFormatter] {e : ScreenEvent} (drawn : Drawn s)
    (taken : s.step e = some s') : Drawn s' := by
  cases stepped_of_step taken with
  | called unasked ran =>
      intro row after onScreen notAsked
      obtain ⟨displayed, shown, rfl⟩ := Option.map_eq_some_iff.mp onScreen
      obtain ⟨before, still⟩ := Bool.or_eq_false_iff.mp notAsked
      exact current_called (drawn row displayed shown before) unasked ran still
  | @drawn indexPath thumbnail reused _ raised answered =>
      obtain ⟨dequeued, given, rfl⟩ := Option.map_eq_some_iff.mp answered
      intro row displayed onScreen notAsked
      by_cases same : row = indexPath.row
      · subst same
        simp only [Function.update_self, Option.some.injEq] at onScreen
        subst onScreen
        exact current_configured (borderWidth_dequeued given) indexPath thumbnail
      · simp only [Function.update_of_ne same] at onScreen
        exact current_asked (drawn row displayed onScreen notAsked) indexPath thumbnail
  | @hidden other =>
      intro row displayed onScreen notAsked
      by_cases same : row = other
      · subst same
        simp at onScreen
      · simp only [Function.update_of_ne same] at onScreen
        exact drawn row displayed onScreen notAsked

theorem drawn_of_run [DateFormatter] {launch : Launch}
    {history : List (Transition Screen ScreenEvent)}
    (run : Run step (launched launch) history s) : Drawn s :=
  run.always (drawn_launched launch) fun _ _ _ drawn taken => drawn_step drawn taken

/-- In every run a displayed cell is current until its row is asked to be reloaded,
however cells are reused. -/
theorem current_of_run [DateFormatter] {launch : Launch}
    {history : List (Transition Screen ScreenEvent)}
    (run : Run step (launched launch) history s) (onScreen : s.cells row = some displayed)
    (unasked : displayed.reloadAsked = false) : s.app.Current row displayed :=
  drawn_of_run run row displayed onScreen unasked

/-- In serial use over a fixed library the indicator of a cell that was configured with a
cached view model and not asked to be reloaded is on exactly when there is a note for its
photo on disk. -/
theorem indicator_iff_stored [DateFormatter] {launch : Launch}
    {history : List (Transition Screen ScreenEvent)}
    (run : Run step (launched launch) history s)
    (distinct : (launch.library.map PHAsset.localIdentifier).Nodup)
    (allowed : ∀ t ∈ appHistory history, App.KeepsLibrary t ∧ App.TapsDisplayed t ∧
      App.Serial t ∧ App.CommitSucceeds t)
    (onScreen : s.cells row = some displayed) (unasked : displayed.reloadAsked = false)
    (cached : displayed.reference = .cached row) :
    ∃ asset, s.app.viewModel.assetAt row = some asset ∧
      (displayed.cell.appearance.indicator = true ↔
        ∃ note, s.app.noteManager.stored asset.localIdentifier = some note ∧
          note.hasNote = true) := by
  have tidy : App.Tidy launch.library s.app := by
    refine (run_app run).invariant (App.tidy_app launch) ?_ allowed
    rintro s e s' ⟨keeps, displayed, serial, succeeds⟩ tidy taken
    exact App.tidy_step distinct tidy keeps displayed serial succeeds taken
  have current := drawn_of_run run row displayed onScreen unasked
  simp only [App.Current, cached] at current
  obtain ⟨-, viewModel, held, indicator, -⟩ := current
  obtain ⟨asset, found⟩ := tidy.fixed.cells row (by simp [held])
  refine ⟨asset, found, ?_⟩
  have onDisk : s.app.noteManager.row = s.app.noteManager.stored := by
    rcases tidy.store with closed | ready
    · funext photoId
      simp [NoteManager.row, NoteManager.stored, closed]
    · exact NoteManager.row_of_ready ready
  rw [indicator, tidy.flags row viewModel asset held found, NoteManager.hasNote, onDisk]
  cases s.app.noteManager.stored asset.localIdentifier with
  | none => simp
  | some note => simp

/-- Where every completion finds the cells it is about, a cell that was not asked to be
reloaded has the border exactly when its row is selected. -/
theorem border_eq_of_run [DateFormatter] {launch : Launch}
    {history : List (Transition Screen ScreenEvent)}
    (run : Run step (launched launch) history s)
    (follows : ∀ t ∈ appHistory history, App.HighlightsFollow t)
    (onScreen : s.cells row = some displayed) (unasked : displayed.reloadAsked = false) :
    displayed.cell.appearance.border =
      if row = s.app.viewModel.selectedIndexPath.item then some Colors.primaryColor else none := by
  have highlighted : App.Highlighted s.app := by
    refine (run_app run).invariant (App.highlighted_app launch) ?_ follows
    intro s e s' follows highlighted taken
    exact (App.highlighted_iff_of_stepped highlighted (App.stepped_of_step taken).2).mpr follows
  have current := drawn_of_run run row displayed onScreen unasked
  unfold App.Current at current
  cases refers : displayed.reference with
  | cached other =>
      simp only [refers] at current
      obtain ⟨-, viewModel, held, -, border, -⟩ := current
      rw [border]
      simp only [NoteTakingPhotoCellViewModel.appearance, highlighted row viewModel held,
        IndexPath.row_eq_item]
  | detached viewModel =>
      simp only [refers] at current
      obtain ⟨looks, -, selected⟩ := current
      rw [looks]
      simp only [NoteTakingPhotoCellViewModel.appearance, selected]

/-- The cells of the first and the third row are displayed; the first photo is
selected, its cell drawn again with the one that was bordered, and a note saved. -/
def noteOnScreen : List ScreenEvent :=
  App.startup.map ScreenEvent.callback ++
    [.cellForItemAt ⟨2⟩ .delivered none, .cellForItemAt ⟨0⟩ .delivered none,
      .callback (.didSelectItemAt ⟨0⟩ .delivered ⟨.delivered, .delivered⟩),
      .callback (.largeImageLoaded 0 .delivered ⟨.delivered, .delivered⟩),
      .cellForItemAt ⟨2⟩ .delivered none, .cellForItemAt ⟨0⟩ .delivered (some 0),
      .callback (.typeTitle "Sunset"), .callback (.textFieldDidEndEditing .succeeds),
      .cellForItemAt ⟨0⟩ .delivered (some 0)]

theorem current_of_run_noteOnScreen :
    ∃ history s displayed,
      play (@step DateFormatter.plain) (launched .threePhotos) noteOnScreen = some (history, s) ∧
      s.cells 0 = some displayed ∧ s.app.Current 0 displayed := by
  have plays : play (@step DateFormatter.plain) (launched .threePhotos) noteOnScreen =
    some (_, _) := rfl
  exact ⟨_, _, _, plays, rfl, @current_of_run _ _ _ DateFormatter.plain _ _ (run_of_play plays)
    rfl rfl⟩

theorem indicator_iff_stored_noteOnScreen :
    ∃ history s displayed,
      play (@step DateFormatter.plain) (launched .threePhotos) noteOnScreen = some (history, s) ∧
      s.cells 0 = some displayed ∧ displayed.cell.appearance.indicator = true ∧
      ∃ asset, s.app.viewModel.assetAt 0 = some asset ∧
        (displayed.cell.appearance.indicator = true ↔
          ∃ note, s.app.noteManager.stored asset.localIdentifier = some note ∧
            note.hasNote = true) := by
  have plays : play (@step DateFormatter.plain) (launched .threePhotos) noteOnScreen =
    some (_, _) := rfl
  exact ⟨_, _, _, plays, rfl, rfl, @indicator_iff_stored _ _ _ DateFormatter.plain _ _
    (run_of_play plays) (by decide) (by decide) rfl rfl rfl⟩

theorem border_eq_of_run_noteOnScreen :
    ∃ history s displayed,
      play (@step DateFormatter.plain) (launched .threePhotos) noteOnScreen = some (history, s) ∧
      s.cells 2 = some displayed ∧ displayed.cell.appearance.border =
        if 2 = s.app.viewModel.selectedIndexPath.item then some Colors.primaryColor else none := by
  have plays : play (@step DateFormatter.plain) (launched .threePhotos) noteOnScreen =
    some (_, _) := rfl
  exact ⟨_, _, _, plays, rfl, @border_eq_of_run _ _ _ DateFormatter.plain _ _ (run_of_play plays)
    (by decide) rfl rfl⟩

end Screen

end Phonotes
