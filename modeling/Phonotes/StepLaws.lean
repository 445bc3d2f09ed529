import Phonotes.Controller
import Phonotes.Library.TransitionSystem
import Phonotes.ViewModelLaws

/-!
What one callback can do.

`Stepped` lists the outcomes of a step, one constructor per way through the
handlers, with the guards of that way and the state it leaves. Every invariant
below is proved by cases on it, so the guards of the handlers are split here and
nowhere else. The frame lemmas say what the two long handlers leave alone.
-/

namespace Phonotes

namespace NoteTakingViewModel

/-- After the permission response there is a photo manager: the one there was,
or a new one over the library. -/
theorem updatePhotoManager_eq (self : NoteTakingViewModel) (size : CGSize)
    (library : List PHAsset) :
    self.updatePhotoManager (some size) library =
      { self with
        photoManager := some (self.photoManager.getD (PhotoManager.init size library)) } := by
  cases self with
  | mk _ _ _ _ photoManager _ _ _ _ => cases photoManager <;> rfl

end NoteTakingViewModel

/-- The commit outcome of an end-of-editing event. -/
def Event.endsEditing : Event → Option CommitOutcome
  | .textFieldDidEndEditing commit => some commit
  | .textViewDidEndEditing commit => some commit
  | _ => none

namespace App

open NoteTakingViewModel

/-! ### The completion of `didSelectItemAt` -/

section DidSelectCompletion

variable (self : App) (indexPath : IndexPath) (cells : CellReplies)

/-- The view model after the completion: the flag of the row selected before is
cleared, then that of the new row set. -/
theorem didSelectCompletion_viewModel :
    (self.didSelectCompletion indexPath cells).viewModel =
      ((self.viewModel.updateSelectedIndexPath indexPath).highlight self.noteManager
        self.viewModel.selectedIndexPath cells.previous false).highlight self.noteManager
          indexPath cells.current true := rfl

theorem didSelectCompletion_redrawn :
    Redrawn self.noteManager (self.viewModel.updateSelectedIndexPath indexPath)
      (self.didSelectCompletion indexPath cells).viewModel := by
  rw [didSelectCompletion_viewModel]
  exact (redrawn_highlight self.noteManager _ cells.previous false).trans
    (redrawn_highlight self.noteManager indexPath cells.current true)

/-- Apart from the selection and the cells, only the screen changes: it is
repopulated, and the row selected before and the one selected now are reloaded. -/
theorem didSelectCompletion_frame :
    self.didSelectCompletion indexPath cells =
      { self with
        viewModel := (self.didSelectCompletion indexPath cells).viewModel
        view := ((self.view.populateViewWithSelectedPhotoInfo self.viewModel).reloadItems
          self.viewModel.selectedIndexPath self.viewModel.numberOfItems).reloadItems
            indexPath self.viewModel.numberOfItems } := by
  have count := (didSelectCompletion_redrawn self indexPath cells).numberOfItems
  have same : (self.viewModel.updateSelectedIndexPath indexPath).numberOfItems =
      self.viewModel.numberOfItems := rfl
  rw [← same, ← count]
  rfl

@[simp] theorem didSelectCompletion_noteManager :
    (self.didSelectCompletion indexPath cells).noteManager = self.noteManager := rfl

@[simp] theorem didSelectCompletion_library :
    (self.didSelectCompletion indexPath cells).library = self.library := rfl

@[simp] theorem didSelectCompletion_pendingLoads :
    (self.didSelectCompletion indexPath cells).pendingLoads = self.pendingLoads := rfl

@[simp] theorem didSelectCompletion_photoManager :
    (self.didSelectCompletion indexPath cells).viewModel.photoManager =
      self.viewModel.photoManager :=
  (didSelectCompletion_redrawn self indexPath cells).photoManager

@[simp] theorem didSelectCompletion_currentSelectedPhoto :
    (self.didSelectCompletion indexPath cells).viewModel.currentSelectedPhoto =
      self.viewModel.currentSelectedPhoto :=
  (didSelectCompletion_redrawn self indexPath cells).currentSelectedPhoto

@[simp] theorem didSelectCompletion_selectedIndexPath :
    (self.didSelectCompletion indexPath cells).viewModel.selectedIndexPath = indexPath :=
  (didSelectCompletion_redrawn self indexPath cells).selectedIndexPath

@[simp] theorem didSelectCompletion_assetAt (row : Nat) :
    (self.didSelectCompletion indexPath cells).viewModel.assetAt row =
      self.viewModel.assetAt row :=
  (didSelectCompletion_redrawn self indexPath cells).assetAt row

@[simp] theorem didSelectCompletion_view :
    (self.didSelectCompletion indexPath cells).view =
      ((self.view.populateViewWithSelectedPhotoInfo self.viewModel).reloadItems
        self.viewModel.selectedIndexPath self.viewModel.numberOfItems).reloadItems
          indexPath self.viewModel.numberOfItems := by
  rw [didSelectCompletion_frame]

end DidSelectCompletion

/-! ### The handler of a load -/

section LargeImageLoaded

variable [DateFormatter] (self : App) (load : PendingLoad) (image : ImageReply)
  (cells : CellReplies)

/-- The view model when the completion of the load is called. -/
def loadedViewModel : NoteTakingViewModel :=
  self.viewModel.largeImageLoaded self.noteManager load.indexPath
    (load.manager.loadLargeImage load.asset image)

@[simp] theorem loadedViewModel_selectedIndexPath :
    (self.loadedViewModel load image).selectedIndexPath = self.viewModel.selectedIndexPath := by
  rw [loadedViewModel, largeImageLoaded_eq]

@[simp] theorem loadedViewModel_numberOfItems :
    (self.loadedViewModel load image).numberOfItems = self.viewModel.numberOfItems := by
  rw [loadedViewModel, largeImageLoaded_eq]
  rfl

/-- The row that is selected once the completion has run: the one captured at
the tap, whichever was tapped since. -/
def loadedIndexPath : IndexPath :=
  match load.completion with
  | .viewWillAppear => self.viewModel.selectedIndexPath
  | .didSelectItemAt => load.indexPath

/-- The handler, split at the call of its completion. -/
theorem largeImageLoaded_eq_completion :
    self.largeImageLoaded load image cells =
      let loaded := { self with viewModel := self.loadedViewModel load image }
      match load.completion with
      | .viewWillAppear => loaded.populateViewWithSelectedPhotoInfo
      | .didSelectItemAt => loaded.didSelectCompletion load.indexPath cells := rfl

theorem largeImageLoaded_redrawn :
    Redrawn self.noteManager
      ((self.loadedViewModel load image).updateSelectedIndexPath (self.loadedIndexPath load))
      (self.largeImageLoaded load image cells).viewModel := by
  rw [largeImageLoaded_eq_completion, loadedIndexPath]
  cases load.completion with
  | viewWillAppear =>
      rw [← loadedViewModel_selectedIndexPath self load image]
      exact .refl self.noteManager (self.loadedViewModel load image)
  | didSelectItemAt =>
      exact didSelectCompletion_redrawn
        { self with viewModel := self.loadedViewModel load image } load.indexPath cells

/-- The screen: repopulated, and for a tap the two rows reloaded. -/
theorem largeImageLoaded_view :
    (self.largeImageLoaded load image cells).view =
      let view :=
        self.view.populateViewWithSelectedPhotoInfo (self.loadedViewModel load image)
      match load.completion with
      | .viewWillAppear => view
      | .didSelectItemAt =>
          (view.reloadItems self.viewModel.selectedIndexPath
            self.viewModel.numberOfItems).reloadItems load.indexPath
              self.viewModel.numberOfItems := by
  rw [largeImageLoaded_eq_completion]
  cases load.completion with
  | viewWillAppear => rfl
  | didSelectItemAt =>
      simp only [didSelectCompletion_view, loadedViewModel_selectedIndexPath,
        loadedViewModel_numberOfItems]

/-- What the screen shows after a delivery: reloading rows changes nothing of it. -/
theorem largeImageLoaded_view_eq :
    (self.largeImageLoaded load image cells).view =
      { self.view.populateViewWithSelectedPhotoInfo (self.loadedViewModel load image) with
        calls := (self.largeImageLoaded load image cells).view.calls } := by
  rw [largeImageLoaded_view]
  cases load.completion <;> rfl

@[simp] theorem largeImageLoaded_noteManager :
    (self.largeImageLoaded load image cells).noteManager = self.noteManager := by
  rw [largeImageLoaded_eq_completion]
  cases load.completion <;> rfl

@[simp] theorem largeImageLoaded_library :
    (self.largeImageLoaded load image cells).library = self.library := by
  rw [largeImageLoaded_eq_completion]
  cases load.completion <;> rfl

@[simp] theorem largeImageLoaded_pendingLoads :
    (self.largeImageLoaded load image cells).pendingLoads = self.pendingLoads := by
  rw [largeImageLoaded_eq_completion]
  cases load.completion <;> rfl

@[simp] theorem largeImageLoaded_photoManager :
    (self.largeImageLoaded load image cells).viewModel.photoManager =
      self.viewModel.photoManager := by
  rw [(largeImageLoaded_redrawn self load image cells).photoManager]
  simp only [loadedViewModel, largeImageLoaded_eq]
  rfl

@[simp] theorem largeImageLoaded_assetAt (row : Nat) :
    (self.largeImageLoaded load image cells).viewModel.assetAt row =
      self.viewModel.assetAt row := by
  simp only [NoteTakingViewModel.assetAt, largeImageLoaded_photoManager]

@[simp] theorem largeImageLoaded_currentSelectedPhoto :
    (self.largeImageLoaded load image cells).viewModel.currentSelectedPhoto =
      withImage self.viewModel.currentSelectedPhoto
        (load.manager.loadLargeImage load.asset image) := by
  rw [(largeImageLoaded_redrawn self load image cells).currentSelectedPhoto]
  simp only [loadedViewModel, largeImageLoaded_eq]
  rfl

@[simp] theorem largeImageLoaded_selectedIndexPath :
    (self.largeImageLoaded load image cells).viewModel.selectedIndexPath =
      self.loadedIndexPath load := by
  rw [(largeImageLoaded_redrawn self load image cells).selectedIndexPath]
  rfl

/-- A delivery exposes the note of the current photo. -/
theorem largeImageLoaded_exposes :
    ((self.largeImageLoaded load image cells).viewModel.noteTitle,
      (self.largeImageLoaded load image cells).viewModel.noteDetail) =
        exposedNote self.noteManager
          (self.largeImageLoaded load image cells).viewModel.currentSelectedPhoto := by
  rw [largeImageLoaded_currentSelectedPhoto, (largeImageLoaded_redrawn self load image cells).frame]
  simp only [loadedViewModel, largeImageLoaded_eq]
  rfl

end LargeImageLoaded

/-! ### Ending an edit -/

section UpdateNote

/-- The view model that is saved: it takes over the texts on screen. -/
def editedViewModel (self : App) : NoteTakingViewModel :=
  { self.viewModel with
    noteTitle := some self.view.noteTitleTextField
    noteDetail := some self.view.noteDetailTextView }

/-- The screen after the success report, which comes only when the selected
row's cell is cached: that row is reloaded. -/
def reportedView (self : App) : NoteTakingView :=
  if self.viewModel.SelectedCellCached then
    self.view.reloadItems self.viewModel.selectedIndexPath self.viewModel.numberOfItems
  else self.view

/-- `Saved s commit s'`: one way through `updateNoteWhenDidEndEditing`. -/
inductive Saved (s : App) : CommitOutcome → App → Prop where
  | noPhoto {commit : CommitOutcome} :
      s.viewModel.currentSelectedPhoto = none →
      Saved s commit
        { s with
          viewModel := s.editedViewModel
          view := s.view.showDefaultAlert "Note not saved" "Cannot find selected photo"
          raised := none }
  | noRealm {commit : CommitOutcome} {photo : Photo} :
      s.viewModel.currentSelectedPhoto = some photo →
      s.noteManager.realm = none →
      Saved s commit
        { s with
          noteManager := s.noteManager.afterCall (s.editedViewModel.saveNoteCall photo) none
          viewModel := s.editedViewModel
          raised := none }
  | raised {commit : CommitOutcome} {photo : Photo} {realm : Realm} :
      s.viewModel.currentSelectedPhoto = some photo →
      s.noteManager.realm = some realm → ¬ realm.Idle →
      Saved s commit
        { s with
          noteManager :=
            s.noteManager.afterCall (s.editedViewModel.saveNoteCall photo) (some realm)
          viewModel := s.editedViewModel
          raised := some ⟨"The Realm is already in a write transaction"⟩ }
  | committed {photo : Photo} {realm : Realm} :
      s.viewModel.currentSelectedPhoto = some photo →
      s.noteManager.realm = some realm → realm.Idle →
      Saved s .succeeds
        { s with
          noteManager := s.noteManager.afterCall (s.editedViewModel.saveNoteCall photo)
            (some ⟨s.editedViewModel.savedTable photo realm, none⟩)
          viewModel := s.editedViewModel.noteSaved photo
          view := s.reportedView
          raised := none }
  | threw {photo : Photo} {realm : Realm} :
      s.viewModel.currentSelectedPhoto = some photo →
      s.noteManager.realm = some realm → realm.Idle →
      Saved s .throws
        { s with
          noteManager := s.noteManager.afterCall (s.editedViewModel.saveNoteCall photo)
            (some ⟨realm.committed, some (s.editedViewModel.savedTable photo realm)⟩)
          viewModel := s.editedViewModel.noteSaved photo
          view := s.reportedView.showDefaultAlert "Note not saved" "Error: Save Note Failed"
          raised := none }

/-- Ending an edit goes one of these ways. -/
theorem saved_updateNoteWhenDidEndEditing (s : App) (commit : CommitOutcome) :
    Saved s commit (s.updateNoteWhenDidEndEditing commit) := by
  cases selected : s.viewModel.currentSelectedPhoto with
  | none =>
      have unselected : s.editedViewModel.currentSelectedPhoto = none := selected
      have outcome : Saved s commit _ := .noPhoto selected
      simp only [updateNoteWhenDidEndEditing]
      rw [← editedViewModel, saveNote_of_no_photo _ _ unselected]
      exact outcome
  | some photo =>
      have chosen : s.editedViewModel.currentSelectedPhoto = some photo := selected
      cases held : s.noteManager.realm with
      | none =>
          have outcome : Saved s commit _ := .noRealm selected held
          simp only [updateNoteWhenDidEndEditing]
          rw [← editedViewModel, saveNote_of_no_realm _ _ chosen held]
          exact outcome
      | some realm =>
          by_cases idle : realm.Idle
          · cases commit with
            | succeeds =>
                have outcome := Saved.committed selected held idle
                simp only [updateNoteWhenDidEndEditing]
                rw [← editedViewModel, saveNote_of_commit _ _ chosen held idle]
                exact outcome
            | throws =>
                have outcome := Saved.threw selected held idle
                simp only [updateNoteWhenDidEndEditing]
                rw [← editedViewModel, saveNote_of_throw _ _ chosen held idle]
                exact outcome
          · have outcome : Saved s commit _ := .raised selected held idle
            simp only [updateNoteWhenDidEndEditing]
            rw [← editedViewModel, saveNote_of_not_idle _ _ chosen held idle]
            exact outcome

namespace Saved

variable {s s' : App} {commit : CommitOutcome}

theorem library (saved : Saved s commit s') : s'.library = s.library := by
  cases saved <;> rfl

theorem pendingLoads (saved : Saved s commit s') : s'.pendingLoads = s.pendingLoads := by
  cases saved <;> rfl

theorem photoManager (saved : Saved s commit s') :
    s'.viewModel.photoManager = s.viewModel.photoManager := by
  cases saved <;> rfl

theorem selectedIndexPath (saved : Saved s commit s') :
    s'.viewModel.selectedIndexPath = s.viewModel.selectedIndexPath := by
  cases saved <;> rfl

/-- A save changes neither the texts on screen nor what the collection view has
loaded. -/
theorem view_texts (saved : Saved s commit s') :
    s'.view.noteTitleTextField = s.view.noteTitleTextField ∧
      s'.view.noteDetailTextView = s.view.noteDetailTextView ∧
      s'.view.loadedItemCount = s.view.loadedItemCount := by
  cases saved with
  | noPhoto _ => exact ⟨rfl, rfl, rfl⟩
  | noRealm _ _ => exact ⟨rfl, rfl, rfl⟩
  | raised _ _ _ => exact ⟨rfl, rfl, rfl⟩
  | committed _ _ _ =>
      by_cases cached : s.viewModel.SelectedCellCached
      · simp only [reportedView, cached, if_true]
        exact ⟨rfl, rfl, rfl⟩
      · simp only [reportedView, cached, if_false, and_self]
  | threw _ _ _ =>
      by_cases cached : s.viewModel.SelectedCellCached
      · simp only [reportedView, cached, if_true]
        exact ⟨rfl, rfl, rfl⟩
      · simp only [reportedView, cached, if_false]
        exact ⟨rfl, rfl, rfl⟩

end Saved

end UpdateNote

/-! ### The placeholder, and drawing a cell -/

theorem textViewShouldBeginEditing_eq (self : App) :
    self.textViewShouldBeginEditing =
      { self with
        view := { self.view with
          noteDetailTextView :=
            if self.view.noteDetailTextView = Constants.defaultNoteDetail then ""
            else self.view.noteDetailTextView } } := by
  simp only [App.textViewShouldBeginEditing]
  split_ifs <;> rfl

theorem textViewShouldEndEditing_eq (self : App) :
    self.textViewShouldEndEditing =
      { self with
        view := { self.view with
          noteDetailTextView :=
            if self.view.noteDetailTextView = "" then Constants.defaultNoteDetail
            else self.view.noteDetailTextView } } := by
  simp only [App.textViewShouldEndEditing]
  split_ifs <;> rfl

theorem cellForItemAt_redrawn (self : App) (indexPath : IndexPath) (thumbnail : ImageReply) :
    Redrawn self.noteManager self.viewModel (self.cellForItemAt indexPath thumbnail).viewModel :=
  redrawn_getCellViewModel self.noteManager thumbnail

/-! ### The outcomes of a step -/

/-- The app once the photo manager exists. -/
def withPhotoManager (self : App) (bounds : CGSize) : App :=
  { self with viewModel := self.viewModel.updatePhotoManager (some bounds) self.library }

/-- Only the photo manager changes, and only if there was none. -/
theorem withPhotoManager_eq (self : App) (bounds : CGSize) :
    self.withPhotoManager bounds =
      let manager := self.viewModel.photoManager.getD (PhotoManager.init bounds self.library)
      { self with viewModel := { self.viewModel with photoManager := some manager } } := by
  rw [withPhotoManager, updatePhotoManager_eq]

/-- The app after `asset` was selected and its large image requested. -/
def startLoad (self : App) (manager : PhotoManager) (asset : PHAsset) (indexPath : IndexPath)
    (completion : Completion) : App :=
  { self with
    viewModel := self.viewModel.select self.noteManager asset
    pendingLoads := self.pendingLoads ++ [⟨manager, asset, indexPath, completion⟩] }

def reloadData (self : App) : App :=
  { self with view := self.view.reloadData self.viewModel.numberOfItems }

variable [DateFormatter]

/-- `Stepped s e s'`: one way through the handler of `e` leads from `s` to `s'`. -/
inductive Stepped (s : App) : Event → App → Prop where
  | denied {bounds : CGSize} {thumbnail : ImageReply} :
      Stepped s (.permissionResponse false bounds thumbnail)
        { s with view := { s.view with getAccessButtonIsHidden := false } }
  | firstUnselectable {bounds : CGSize} {thumbnail : ImageReply} :
      (s.withPhotoManager bounds).viewModel.assetAt s.viewModel.selectedIndexPath.item = none →
      Stepped s (.permissionResponse true bounds thumbnail)
        (s.withPhotoManager bounds).populateViewWithSelectedPhotoInfo.reloadData
  | firstUnfetched {bounds : CGSize} {asset : PHAsset} :
      (s.withPhotoManager bounds).viewModel.assetAt s.viewModel.selectedIndexPath.item =
        some asset →
      Stepped s (.permissionResponse true bounds .nil) (s.withPhotoManager bounds).reloadData
  | firstSelected {bounds : CGSize} {manager : PhotoManager} {asset : PHAsset} :
      (s.withPhotoManager bounds).viewModel.photoManager = some manager →
      (s.withPhotoManager bounds).viewModel.assetAt s.viewModel.selectedIndexPath.item =
        some asset →
      Stepped s (.permissionResponse true bounds .delivered)
        ((s.withPhotoManager bounds).startLoad manager asset s.viewModel.selectedIndexPath
          .viewWillAppear).reloadData
  | tapIgnored {indexPath : IndexPath} {thumbnail : ImageReply} {cells : CellReplies} :
      s.view.getAccessButtonIsHidden = false →
      Stepped s (.didSelectItemAt indexPath thumbnail cells) s
  | tapUnselectable {indexPath : IndexPath} {thumbnail : ImageReply} {cells : CellReplies} :
      s.view.getAccessButtonIsHidden = true →
      s.viewModel.assetAt indexPath.item = none →
      Stepped s (.didSelectItemAt indexPath thumbnail cells)
        (s.didSelectCompletion indexPath cells)
  | tapUnfetched {indexPath : IndexPath} {cells : CellReplies} {asset : PHAsset} :
      s.view.getAccessButtonIsHidden = true →
      s.viewModel.assetAt indexPath.item = some asset →
      Stepped s (.didSelectItemAt indexPath .nil cells) s
  | tapSelected {indexPath : IndexPath} {cells : CellReplies} {manager : PhotoManager}
      {asset : PHAsset} :
      s.view.getAccessButtonIsHidden = true →
      s.viewModel.photoManager = some manager →
      s.viewModel.assetAt indexPath.item = some asset →
      Stepped s (.didSelectItemAt indexPath .delivered cells)
        (s.startLoad manager asset indexPath .didSelectItemAt)
  | largeImageLoaded {i : Nat} {load : PendingLoad} {image : ImageReply} {cells : CellReplies} :
      s.pendingLoads[i]? = some load →
      Stepped s (.largeImageLoaded i image cells)
        ({ s with pendingLoads := s.pendingLoads.eraseIdx i }.largeImageLoaded load image cells)
  | cellForItemAt {indexPath : IndexPath} {thumbnail : ImageReply} :
      Stepped s (.cellForItemAt indexPath thumbnail) (s.cellForItemAt indexPath thumbnail)
  | typedTitle {text : String} :
      Stepped s (.typeTitle text) { s with view := { s.view with noteTitleTextField := text } }
  | typedDetail {text : String} :
      Stepped s (.typeDetail text) { s with view := { s.view with noteDetailTextView := text } }
  | endedEditing {e : Event} {commit : CommitOutcome} {s' : App} :
      e.endsEditing = some commit → Saved s commit s' → Stepped s e s'
  | beganEditing : Stepped s .textViewShouldBeginEditing s.textViewShouldBeginEditing
  | willEndEditing : Stepped s .textViewShouldEndEditing s.textViewShouldEndEditing
  | libraryChanged {changeDetails : Option (List PHAsset)} :
      Stepped s (.photoLibraryDidChange changeDetails) (s.photoLibraryDidChange changeDetails)
  | laidOut {itemSize : CGSize} :
      Stepped s (.viewWillLayoutSubviews itemSize)
        { s with viewModel := s.viewModel.updateThumbnailSize itemSize }

/-- How `permissionResponse` goes on from its selection. -/
def afterSelection (self : App) (indexPath : IndexPath) : Selection → App
  | .completed => self.populateViewWithSelectedPhotoInfo
  | .unfetched => self
  | .loading viewModel manager asset =>
      { self with
        viewModel
        pendingLoads := self.pendingLoads ++ [⟨manager, asset, indexPath, .viewWillAppear⟩] }

private theorem stepped_permissionResponse (s : App) (status : Bool) (bounds : CGSize)
    (thumbnail : ImageReply) :
    Stepped s (.permissionResponse status bounds thumbnail)
      (s.permissionResponse status bounds thumbnail) := by
  cases status with
  | false => exact .denied
  | true =>
      have same : (s.withPhotoManager bounds).viewModel.selectedIndexPath =
          s.viewModel.selectedIndexPath := by
        rw [withPhotoManager_eq]
      have held : (s.withPhotoManager bounds).viewModel.photoManager =
          some (s.viewModel.photoManager.getD (PhotoManager.init bounds s.library)) := by
        rw [withPhotoManager_eq]
      have unfolded : s.permissionResponse true bounds thumbnail =
          ((s.withPhotoManager bounds).afterSelection s.viewModel.selectedIndexPath
            ((s.withPhotoManager bounds).viewModel.setCurrentSelectedPhoto s.noteManager
              s.viewModel.selectedIndexPath thumbnail)).reloadData := by
        rw [← same]
        rfl
      rw [unfolded]
      cases found :
          (s.withPhotoManager bounds).viewModel.assetAt s.viewModel.selectedIndexPath.item with
      | none =>
          rw [setCurrentSelectedPhoto_of_no_asset s.noteManager found]
          exact .firstUnselectable found
      | some asset =>
          cases thumbnail with
          | nil =>
              rw [setCurrentSelectedPhoto_of_nil s.noteManager found]
              exact .firstUnfetched found
          | delivered =>
              rw [setCurrentSelectedPhoto_of_delivered s.noteManager held found]
              exact .firstSelected held found

private theorem stepped_didSelectItemAt (s : App) (indexPath : IndexPath)
    (thumbnail : ImageReply) (cells : CellReplies) :
    Stepped s (.didSelectItemAt indexPath thumbnail cells)
      (s.didSelectItemAt indexPath thumbnail cells) := by
  cases hidden : s.view.getAccessButtonIsHidden with
  | false =>
      simp only [App.didSelectItemAt, hidden]
      exact .tapIgnored hidden
  | true =>
      simp only [App.didSelectItemAt, hidden, if_true]
      cases found : s.viewModel.assetAt indexPath.item with
      | none =>
          rw [setCurrentSelectedPhoto_of_no_asset s.noteManager found]
          exact .tapUnselectable hidden found
      | some asset =>
          obtain ⟨manager, held, -⟩ := manager_of_assetAt found
          cases thumbnail with
          | nil =>
              rw [setCurrentSelectedPhoto_of_nil s.noteManager found]
              exact .tapUnfetched hidden found
          | delivered =>
              rw [setCurrentSelectedPhoto_of_delivered s.noteManager held found]
              exact .tapSelected hidden held found

/-- Every step is one of the outcomes, and only an app that no exception has
ended takes one. -/
theorem stepped_of_step {s s' : App} {e : Event} (taken : s.step e = some s') :
    s.raised = none ∧ Stepped s e s' := by
  cases ended : s.raised.isSome with
  | true => simp [step, ended] at taken
  | false =>
      refine ⟨by simpa using ended, ?_⟩
      simp only [step, ended, Bool.false_eq_true, if_false] at taken
      cases e with
      | permissionResponse status bounds thumbnail =>
          obtain rfl := Option.some.inj taken
          exact stepped_permissionResponse s status bounds thumbnail
      | didSelectItemAt indexPath thumbnail cells =>
          obtain rfl := Option.some.inj taken
          exact stepped_didSelectItemAt s indexPath thumbnail cells
      | largeImageLoaded i image cells =>
          cases pending : s.pendingLoads[i]? with
          | none => simp [pending] at taken
          | some load =>
              simp only [pending, Option.some.injEq] at taken
              subst taken
              exact .largeImageLoaded pending
      | cellForItemAt indexPath thumbnail =>
          obtain rfl := Option.some.inj taken
          exact .cellForItemAt
      | typeTitle text =>
          obtain rfl := Option.some.inj taken
          exact .typedTitle
      | typeDetail text =>
          obtain rfl := Option.some.inj taken
          exact .typedDetail
      | textFieldDidEndEditing commit =>
          obtain rfl := Option.some.inj taken
          exact .endedEditing rfl (saved_updateNoteWhenDidEndEditing s commit)
      | textViewShouldBeginEditing =>
          obtain rfl := Option.some.inj taken
          exact .beganEditing
      | textViewShouldEndEditing =>
          obtain rfl := Option.some.inj taken
          exact .willEndEditing
      | textViewDidEndEditing commit =>
          obtain rfl := Option.some.inj taken
          exact .endedEditing rfl (saved_updateNoteWhenDidEndEditing s commit)
      | photoLibraryDidChange changeDetails =>
          obtain rfl := Option.some.inj taken
          exact .libraryChanged
      | viewWillLayoutSubviews itemSize =>
          obtain rfl := Option.some.inj taken
          exact .laidOut

end App

end Phonotes
