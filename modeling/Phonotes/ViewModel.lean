import Phonotes.Services

/-!
`NoteTakingPhotoCellViewModel.swift` and `NoteTakingViewModel.swift`.

The cell view models are objects that the dictionary `cellViewModels` and a
caller may share. `getCellViewModel` therefore returns a reference: to the
object cached for a row, or to one that no dictionary holds.
-/

namespace Phonotes

/-! ### NoteTakingPhotoCellViewModel -/

structure NoteTakingPhotoCellViewModel where
  photo : Option UIImage
  hasNote : Bool := false
  isSelected : Bool := false
  deriving DecidableEq, Repr

namespace NoteTakingPhotoCellViewModel

def init (photo : Option Photo) (indexPath selectedIndexPath : IndexPath)
    (noteManager : NoteManager) : NoteTakingPhotoCellViewModel :=
  { photo := match photo with
      | some photo => some photo.photo
      | none =>
          if indexPath.item ≤ 5 then
            UIImage.named ("BlurryImage" ++ toString (indexPath.item + 1))
          else none
    hasNote := match photo.bind Photo.note with
      | some note => (noteManager.read note).hasNote
      | none => false
    isSelected := indexPath = selectedIndexPath }

def updateCellViewModelNote (self : NoteTakingPhotoCellViewModel) (note : Note) :
    NoteTakingPhotoCellViewModel :=
  { self with hasNote := note.hasNote }

end NoteTakingPhotoCellViewModel

/-- A cell view model as a caller holds it. -/
inductive CellReference where
  | cached (row : Nat)
  | detached (cellViewModel : NoteTakingPhotoCellViewModel)
  deriving DecidableEq, Repr

/-! ### NoteTakingViewModel -/

/-- The `noteManager` of the source is the shared one; `saveNoteError` is never
used. -/
structure NoteTakingViewModel where
  photoCreatedData : Option String := none
  largePhoto : Option UIImage := none
  noteTitle : Option String := none
  noteDetail : Option String := none
  photoManager : Option PhotoManager
  selectedIndexPath : IndexPath := ⟨2⟩
  currentSelectedPhoto : Option Photo := none
  thumbnailSize : CGSize := .zero
  cellViewModels : Nat → Option NoteTakingPhotoCellViewModel := fun _ => none

/-- How `setCurrentSelectedPhoto` ends: the completion is called at once; it is
dropped; or a large image is being loaded for `asset`, and the completion is
called when it arrives. -/
inductive Selection where
  | completed
  | unfetched
  | loading (viewModel : NoteTakingViewModel) (manager : PhotoManager) (asset : PHAsset)

namespace NoteTakingViewModel

def init (photoManager : Option PhotoManager) : NoteTakingViewModel := { photoManager }

/-- `updatePhotoManager(largeImageViewSize:)`. `library` is what the new photo
manager would fetch. -/
def updatePhotoManager (self : NoteTakingViewModel) (largeImageViewSize : Option CGSize)
    (library : List PHAsset) : NoteTakingViewModel :=
  match self.photoManager, largeImageViewSize with
  | none, some size => { self with photoManager := some (PhotoManager.init size library) }
  | _, _ => self

def updateThumbnailSize (self : NoteTakingViewModel) (size : CGSize) : NoteTakingViewModel :=
  { self with thumbnailSize := size }

def updateSelectedIndexPath (self : NoteTakingViewModel) (indexPath : IndexPath) :
    NoteTakingViewModel :=
  { self with selectedIndexPath := indexPath }

/-- `setCurrentSelectedPhoto(indexPath:completion:)`, up to the request for the
large image. -/
def setCurrentSelectedPhoto (self : NoteTakingViewModel) (noteManager : NoteManager)
    (indexPath : IndexPath) (reply : ImageReply) : Selection :=
  match self.photoManager with
  | none => .completed
  | some manager =>
      if indexPath.item < manager.fetchResult.length then
        match manager.fetchPhoto noteManager indexPath (some self.thumbnailSize) reply with
        | none => .unfetched
        | some photo =>
            .loading { self with currentSelectedPhoto := some photo } manager photo.asset
      else .completed

def setSelectedPhotoInfo [DateFormatter] (self : NoteTakingViewModel)
    (noteManager : NoteManager) : NoteTakingViewModel :=
  let self :=
    { self with
      photoCreatedData := self.currentSelectedPhoto.map Photo.getFormattedCreationDate
      largePhoto := self.currentSelectedPhoto.map Photo.photo }
  match (self.currentSelectedPhoto.bind Photo.note).map noteManager.read with
  | some note =>
      if note.hasNote then
        { self with noteTitle := note.noteTitle, noteDetail := note.noteDetail }
      else
        { self with noteTitle := some "", noteDetail := some Constants.defaultNoteDetail }
  | none => { self with noteTitle := some "", noteDetail := some Constants.defaultNoteDetail }

/-- Assign to a property of the object cached for a row, if there is one. -/
def modifyCell (self : NoteTakingViewModel) (row : Nat)
    (assign : NoteTakingPhotoCellViewModel → NoteTakingPhotoCellViewModel) :
    NoteTakingViewModel :=
  { self with
    cellViewModels := Function.update self.cellViewModels row
      ((self.cellViewModels row).map assign) }

/-- The handler that `setCurrentSelectedPhoto` passes to `loadLargeImage`, up to
the call of its completion. `indexPath` is the one captured at the selection;
the photo written to is the one current now. -/
def largeImageLoaded [DateFormatter] (self : NoteTakingViewModel) (noteManager : NoteManager)
    (indexPath : IndexPath) (image : Option UIImage) : NoteTakingViewModel :=
  let self : NoteTakingViewModel :=
    match image with
    | some image =>
        { self with
          currentSelectedPhoto := self.currentSelectedPhoto.map fun photo =>
            { photo with photo := image } }
    | none => self
  let self := self.setSelectedPhotoInfo noteManager
  self.modifyCell indexPath.row fun cellViewModel => { cellViewModel with photo := image }

/-- The closure that `saveNote` passes to `NoteManager.saveNote`, with the
`completion` of its own caller. -/
def saveNoteCallback {τ : Type*} (completion : Option String → NoteTakingViewModel → τ → τ)
    (note : Option ManagedNote) (noteManager : NoteManager) :
    NoteTakingViewModel × τ → NoteTakingViewModel × τ
  | (self, state) =>
      match note with
      | none => (self, completion (some "Error: Save Note Failed") self state)
      | some note =>
          let self : NoteTakingViewModel :=
            { self with
              currentSelectedPhoto := self.currentSelectedPhoto.map fun photo =>
                { photo with note := some note } }
          match self.cellViewModels self.selectedIndexPath.row with
          | none => (self, state)
          | some _ =>
              let self := self.modifyCell self.selectedIndexPath.row fun cellViewModel =>
                cellViewModel.updateCellViewModelNote (noteManager.read note)
              (self, completion none self state)

/-- `saveNote(completion:)`. The completion acts on the caller's state. -/
def saveNote {τ : Type*} (self : NoteTakingViewModel) (noteManager : NoteManager)
    (commit : CommitOutcome) (completion : Option String → NoteTakingViewModel → τ → τ)
    (state : τ) : NoteManager × (NoteTakingViewModel × τ) × Option NSException :=
  match self.currentSelectedPhoto with
  | none => (noteManager, (self, completion (some "Cannot find selected photo") self state), none)
  | some photo =>
      let noteDetailText :=
        if self.noteDetail = some Constants.defaultNoteDetail then some "" else self.noteDetail
      noteManager.saveNote photo.photoId self.noteTitle noteDetailText commit
        (saveNoteCallback completion) (self, state)

def numberOfItems (self : NoteTakingViewModel) : Nat :=
  match self.photoManager with
  | some manager => manager.fetchResult.length
  | none => 5

/-- The guard of `getCellViewModel`: a photo manager, a row in range and a
thumbnail. -/
def guardedPhoto (self : NoteTakingViewModel) (noteManager : NoteManager)
    (indexPath : IndexPath) (reply : ImageReply) : Option Photo :=
  match self.photoManager with
  | some manager =>
      if indexPath.item < manager.fetchResult.length then
        manager.fetchPhoto noteManager indexPath (some self.thumbnailSize) reply
      else none
  | none => none

/-- `getCellViewModel(atIndexPath:)`. The thumbnail is fetched before the cache
is looked at. -/
def getCellViewModel (self : NoteTakingViewModel) (noteManager : NoteManager)
    (indexPath : IndexPath) (reply : ImageReply) : NoteTakingViewModel × CellReference :=
  match self.guardedPhoto noteManager indexPath reply with
  | none =>
      (self, .detached (.init none indexPath self.selectedIndexPath noteManager))
  | some photo =>
      match self.cellViewModels indexPath.row with
      | some _ => (self, .cached indexPath.row)
      | none =>
          let cellViewModel : NoteTakingPhotoCellViewModel :=
            .init (some photo) indexPath self.selectedIndexPath noteManager
          ({ self with
              cellViewModels :=
                Function.update self.cellViewModels indexPath.row (some cellViewModel) },
            .cached indexPath.row)

/-- The object behind a reference. -/
def dereference (self : NoteTakingViewModel) :
    CellReference → Option NoteTakingPhotoCellViewModel
  | .cached row => self.cellViewModels row
  | .detached cellViewModel => some cellViewModel

/-- `cellViewModel?.isSelected = selected`: an assignment to an object outside
the cache is not seen by anyone else. -/
def setIsSelected (self : NoteTakingViewModel) (cell : CellReference) (selected : Bool) :
    NoteTakingViewModel :=
  match cell with
  | .cached row =>
      self.modifyCell row fun cellViewModel => { cellViewModel with isSelected := selected }
  | .detached _ => self

end NoteTakingViewModel

end Phonotes
