import Phonotes.ViewModel

/-!
`NoteTakingViewController.swift`: the screen, and the app as a step function.

`App` is everything on the main queue: the controller's outlets, the view model,
the shared note manager, the photo library of the device and the large-image
loads whose handlers have not run. One `Event` is one callback of UIKit, Photos
or the permission request, run to its end. What the environment answers in the
course of it (a thumbnail or none, a commit that goes through or throws) is part
of the event, so the step is a function.
-/

namespace Phonotes

/-! ### The screen -/

/-- A call the controller makes on UIKit. The two counts of `reloadItems` are
`numberOfItems()` and the count the collection view last loaded, both at the
call. An exception of UIKit out of a call is not modelled: the call returns. -/
inductive UICall where
  | populate
  | reloadData (numberOfItems : Nat)
  | reloadItems (indexPath : IndexPath) (numberOfItems loadedItemCount : Nat)
  | alert (title message : String)
  deriving DecidableEq, Repr

/-- The outlets that the modelled code reads or writes. The text of a text field
or text view set to `nil` reads as the empty string. `calls` records what was
asked of UIKit, oldest first; the code does not read it. -/
structure NoteTakingView where
  creationDateLabel : Option String
  largePhotoImageView : Option UIImage
  noteTitleTextField : String
  noteDetailTextView : String
  getAccessButtonIsHidden : Bool
  loadedItemCount : Nat
  calls : List UICall := []
  deriving DecidableEq, Repr

namespace NoteTakingView

/-- `reloadItems(at: [indexPath])`. UIKit raises when the item count has changed
since it was loaded, or the item does not exist; the call is recorded either
way. -/
def reloadItems (self : NoteTakingView) (indexPath : IndexPath) (numberOfItems : Nat) :
    NoteTakingView :=
  { self with
    calls := self.calls ++ [.reloadItems indexPath numberOfItems self.loadedItemCount] }

/-- `reloadData()`: the only call that loads the item count again. -/
def reloadData (self : NoteTakingView) (numberOfItems : Nat) : NoteTakingView :=
  { self with
    loadedItemCount := numberOfItems
    calls := self.calls ++ [.reloadData numberOfItems] }

def showDefaultAlert (self : NoteTakingView) (title message : String) : NoteTakingView :=
  { self with calls := self.calls ++ [.alert title message] }

/-- `populateViewWithSelectedPhotoInfo()` -/
def populateViewWithSelectedPhotoInfo (self : NoteTakingView)
    (viewModel : NoteTakingViewModel) : NoteTakingView :=
  { self with
    creationDateLabel := viewModel.photoCreatedData
    largePhotoImageView := viewModel.largePhoto
    noteTitleTextField := viewModel.noteTitle.getD ""
    noteDetailTextView := viewModel.noteDetail.getD ""
    calls := self.calls ++ [.populate] }

end NoteTakingView

/-! ### The app -/

/-- Which completion a pending load calls: the one of `viewWillAppear` or the
one of `collectionView(_:didSelectItemAt:)`. -/
inductive Completion where
  | viewWillAppear
  | didSelectItemAt
  deriving DecidableEq, Repr

/-- A large-image request whose handler has not been called: the manager and
asset of the request, and what the handler captured. -/
structure PendingLoad where
  manager : PhotoManager
  asset : PHAsset
  indexPath : IndexPath
  completion : Completion
  deriving DecidableEq, Repr

/-- `raised` is the exception that ended the app, if one did. -/
structure App where
  library : List PHAsset
  noteManager : NoteManager
  viewModel : NoteTakingViewModel
  view : NoteTakingView
  pendingLoads : List PendingLoad := []
  raised : Option NSException := none

/-- Replies to the two thumbnail fetches of `didSelectItemAt`'s completion: for
the row selected before, and for the one selected now. -/
structure CellReplies where
  previous : ImageReply
  current : ImageReply
  deriving DecidableEq, Repr

inductive Event where
  /-- The answer to the permission request of `viewWillAppear`. -/
  | permissionResponse (status : Bool) (bounds : CGSize) (thumbnail : ImageReply)
  | didSelectItemAt (indexPath : IndexPath) (thumbnail : ImageReply) (cells : CellReplies)
  /-- The handler of a pending load runs; loads are answered in any order. -/
  | largeImageLoaded (load : Nat) (image : ImageReply) (cells : CellReplies)
  | cellForItemAt (indexPath : IndexPath) (thumbnail : ImageReply)
  | typeTitle (text : String)
  | typeDetail (text : String)
  | textFieldDidEndEditing (commit : CommitOutcome)
  | textViewShouldBeginEditing
  | textViewShouldEndEditing
  | textViewDidEndEditing (commit : CommitOutcome)
  | photoLibraryDidChange (changeDetails : Option (List PHAsset))
  | viewWillLayoutSubviews (itemSize : CGSize)
  deriving DecidableEq, Repr

namespace App

/-- `viewDidLoad` and the first load of the collection view. The texts are those
of the storyboard; `setStyle` then shows the view model's large photo, of which
there is none yet. -/
def viewDidLoad (isPhotoLibraryAccessAllowed : Bool) (bounds : CGSize) (library : List PHAsset)
    (opened : Option NoteTable) : App :=
  let viewModel := NoteTakingViewModel.init
    (if isPhotoLibraryAccessAllowed then some (PhotoManager.init bounds library) else none)
  { library
    noteManager := NoteManager.init opened
    viewModel
    view :=
      { creationDateLabel := some "March 19, 2019"
        largePhotoImageView := viewModel.largePhoto
        noteTitleTextField := ""
        noteDetailTextView := Constants.defaultNoteDetail
        getAccessButtonIsHidden := true
        loadedItemCount := viewModel.numberOfItems } }

def populateViewWithSelectedPhotoInfo (self : App) : App :=
  { self with view := self.view.populateViewWithSelectedPhotoInfo self.viewModel }

/-- The closure passed to `setCurrentSelectedPhoto` by `didSelectItemAt`. -/
def didSelectCompletion (self : App) (indexPath : IndexPath) (cells : CellReplies) : App :=
  let self := self.populateViewWithSelectedPhotoInfo
  let prevSelectedIndex := self.viewModel.selectedIndexPath
  let viewModel := self.viewModel.updateSelectedIndexPath indexPath
  let (viewModel, prevVM) :=
    viewModel.getCellViewModel self.noteManager prevSelectedIndex cells.previous
  let viewModel := viewModel.setIsSelected prevVM false
  let (viewModel, currentVM) :=
    viewModel.getCellViewModel self.noteManager indexPath cells.current
  let viewModel := viewModel.setIsSelected currentVM true
  { self with
    viewModel
    view := (self.view.reloadItems prevSelectedIndex viewModel.numberOfItems).reloadItems
      indexPath viewModel.numberOfItems }

/-- The main-queue part of `viewWillAppear`'s permission callback. -/
def permissionResponse (self : App) (status : Bool) (bounds : CGSize)
    (thumbnail : ImageReply) : App :=
  if status then
    let self :=
      { self with viewModel := self.viewModel.updatePhotoManager (some bounds) self.library }
    let indexPath := self.viewModel.selectedIndexPath
    let self : App :=
      match self.viewModel.setCurrentSelectedPhoto self.noteManager indexPath thumbnail with
      | .completed => self.populateViewWithSelectedPhotoInfo
      | .unfetched => self
      | .loading viewModel manager asset =>
          { self with
            viewModel
            pendingLoads :=
              self.pendingLoads ++ [⟨manager, asset, indexPath, .viewWillAppear⟩] }
    { self with view := self.view.reloadData self.viewModel.numberOfItems }
  else { self with view := { self.view with getAccessButtonIsHidden := false } }

/-- `collectionView(_:didSelectItemAt:)` -/
def didSelectItemAt (self : App) (indexPath : IndexPath) (thumbnail : ImageReply)
    (cells : CellReplies) : App :=
  if self.view.getAccessButtonIsHidden then
    match self.viewModel.setCurrentSelectedPhoto self.noteManager indexPath thumbnail with
    | .completed => self.didSelectCompletion indexPath cells
    | .unfetched => self
    | .loading viewModel manager asset =>
        { self with
          viewModel
          pendingLoads :=
            self.pendingLoads ++ [⟨manager, asset, indexPath, .didSelectItemAt⟩] }
  else self

/-- `collectionView(_:cellForItemAt:)`, without the drawing of the cell. -/
def cellForItemAt (self : App) (indexPath : IndexPath) (thumbnail : ImageReply) : App :=
  { self with
    viewModel := (self.viewModel.getCellViewModel self.noteManager indexPath thumbnail).1 }

/-- `updateNoteWhenDidEndEditing()` -/
def updateNoteWhenDidEndEditing (self : App) (commit : CommitOutcome) : App :=
  let viewModel :=
    { self.viewModel with
      noteTitle := some self.view.noteTitleTextField
      noteDetail := some self.view.noteDetailTextView }
  let (noteManager, (viewModel, view), raised) :=
    viewModel.saveNote self.noteManager commit
      (fun errorMessage viewModel view =>
        match errorMessage with
        | some errorMessage => view.showDefaultAlert "Note not saved" errorMessage
        | none => view.reloadItems viewModel.selectedIndexPath viewModel.numberOfItems)
      self.view
  { self with noteManager, viewModel, view, raised }

/-- `textViewShouldBeginEditing(_:)` -/
def textViewShouldBeginEditing (self : App) : App :=
  if self.view.noteDetailTextView = Constants.defaultNoteDetail then
    { self with view := { self.view with noteDetailTextView := "" } }
  else self

/-- `textViewShouldEndEditing(_:)` -/
def textViewShouldEndEditing (self : App) : App :=
  if self.view.noteDetailTextView = "" then
    { self with view := { self.view with noteDetailTextView := Constants.defaultNoteDetail } }
  else self

/-- A change of the device's library; the photo manager observes it once it
exists. -/
def photoLibraryDidChange (self : App) (changeDetails : Option (List PHAsset)) : App :=
  { self with
    library := changeDetails.getD self.library
    viewModel :=
      { self.viewModel with
        photoManager := self.viewModel.photoManager.map fun manager =>
          manager.photoLibraryDidChange changeDetails } }

section Step

variable [DateFormatter]

/-- The handler of a pending load, with its completion. -/
def largeImageLoaded (self : App) (load : PendingLoad) (image : ImageReply)
    (cells : CellReplies) : App :=
  let self :=
    { self with
      viewModel := self.viewModel.largeImageLoaded self.noteManager load.indexPath
        (load.manager.loadLargeImage load.asset image) }
  match load.completion with
  | .viewWillAppear => self.populateViewWithSelectedPhotoInfo
  | .didSelectItemAt => self.didSelectCompletion load.indexPath cells

/-- One callback. There is none on an app that an exception has ended, and no
answer to a load that is not pending. -/
def step (self : App) (event : Event) : Option App :=
  if self.raised.isSome then none
  else match event with
    | .permissionResponse status bounds thumbnail =>
        some (self.permissionResponse status bounds thumbnail)
    | .didSelectItemAt indexPath thumbnail cells =>
        some (self.didSelectItemAt indexPath thumbnail cells)
    | .largeImageLoaded i image cells =>
        match self.pendingLoads[i]? with
        | some load =>
            some ({ self with pendingLoads := self.pendingLoads.eraseIdx i }.largeImageLoaded
              load image cells)
        | none => none
    | .cellForItemAt indexPath thumbnail => some (self.cellForItemAt indexPath thumbnail)
    | .typeTitle text =>
        some { self with view := { self.view with noteTitleTextField := text } }
    | .typeDetail text =>
        some { self with view := { self.view with noteDetailTextView := text } }
    | .textFieldDidEndEditing commit => some (self.updateNoteWhenDidEndEditing commit)
    | .textViewShouldBeginEditing => some self.textViewShouldBeginEditing
    | .textViewShouldEndEditing => some self.textViewShouldEndEditing
    | .textViewDidEndEditing commit => some (self.updateNoteWhenDidEndEditing commit)
    | .photoLibraryDidChange changeDetails => some (self.photoLibraryDidChange changeDetails)
    | .viewWillLayoutSubviews itemSize =>
        some { self with viewModel := self.viewModel.updateThumbnailSize itemSize }

end Step

end App

end Phonotes
