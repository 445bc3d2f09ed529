import Mathlib.Tactic.SplitIfs
import Phonotes.ViewModel

/-!
What each function of the view model does, once and for all callers.

`assetAt` is the reading of the guards `indexPath.item < photoCount`: a row is in
range exactly when it has an asset. `Redrawn` is all that asking for cells and
setting their highlight can do. `exposedNote` is the text that
`setSelectedPhotoInfo` exposes, and `noteSaved` the state its success callback
leaves.
-/

namespace Phonotes

open Transaction

namespace NoteManager

/-- The `hasNote` flag of a photo's record, `false` when there is none. -/
def hasNote (self : NoteManager) (photoId : String) : Bool :=
  ((self.row photoId).map Note.hasNote).getD false

theorem getNote_eq (self : NoteManager) (photoId : String) :
    self.getNote photoId = (self.row photoId).map fun _ => ⟨photoId⟩ := by
  cases held : self.realm with
  | none => simp [getNote, row, held]
  | some realm => simp [getNote, row, held, Realm.object]

/-- Reading the note looked up for a photo gives its row. -/
theorem map_read_getNote (self : NoteManager) (photoId : String) :
    (self.getNote photoId).map self.read = self.row photoId := by
  rw [getNote_eq, Option.map_map]
  cases found : self.row photoId with
  | none => rfl
  | some note => simp [read, found]

/-- The title and detail to show for a record: its own when it has a note, else an
empty title and the placeholder. -/
def shownNote : Option Note → Option String × Option String
  | some note =>
      if note.hasNote then (note.noteTitle, note.noteDetail)
      else (some "", some Constants.defaultNoteDetail)
  | none => (some "", some Constants.defaultNoteDetail)

/-- The Realm opened and no transaction was left open. -/
def Ready (self : NoteManager) : Prop :=
  ∃ realm, self.realm = some realm ∧ realm.Idle

theorem ready_init (table : NoteTable) : (NoteManager.init (some table)).Ready := ⟨_, rfl, rfl⟩

/-- Without an open transaction the process sees what is on disk. -/
theorem row_of_ready {self : NoteManager} (ready : self.Ready) : self.row = self.stored := by
  obtain ⟨realm, held, idle⟩ := ready
  funext photoId
  simp only [row, stored, held, Option.bind_some, Versioned.current_of_idle idle]

end NoteManager

/-- The record that a call of `NoteManager.saveNote` fills in. -/
def SaveNoteCall.note (self : SaveNoteCall) : Note :=
  NoteManager.newNote self.photoId self.noteTitle self.noteDetail

/-- The table once the record of the call is in it. -/
def SaveNoteCall.write (table : NoteTable) (self : SaveNoteCall) : NoteTable :=
  Function.update table self.photoId (some self.note)

namespace NoteTakingViewModel

/-! ### Rows and assets -/

/-- The asset a row stands for, if there is one. -/
def assetAt (self : NoteTakingViewModel) (row : Nat) : Option PHAsset :=
  self.photoManager.bind fun manager => manager.fetchResult[row]?

theorem assetAt_of_manager {self : NoteTakingViewModel} {manager : PhotoManager}
    (held : self.photoManager = some manager) (row : Nat) :
    self.assetAt row = manager.fetchResult[row]? := by
  simp [assetAt, held]

theorem manager_of_assetAt {self : NoteTakingViewModel} {row : Nat} {asset : PHAsset}
    (found : self.assetAt row = some asset) :
    ∃ manager, self.photoManager = some manager ∧ manager.fetchResult[row]? = some asset := by
  simpa [assetAt, Option.bind_eq_some_iff] using found

theorem photoManager_isSome {self : NoteTakingViewModel} {row : Nat} {asset : PHAsset}
    (found : self.assetAt row = some asset) : self.photoManager.isSome := by
  obtain ⟨manager, held, -⟩ := manager_of_assetAt found
  simp [held]

theorem lt_numberOfItems_of_assetAt {self : NoteTakingViewModel} {row : Nat} {asset : PHAsset}
    (found : self.assetAt row = some asset) : row < self.numberOfItems := by
  obtain ⟨manager, held, atRow⟩ := manager_of_assetAt found
  simp only [numberOfItems, held]
  exact (List.getElem?_eq_some_iff.mp atRow).1

/-- The photo that a thumbnail of `asset` is turned into. -/
def fetchedPhoto (self : NoteTakingViewModel) (noteManager : NoteManager) (asset : PHAsset) :
    Photo :=
  Photo.init asset.localIdentifier (.requested asset self.thumbnailSize .aspectFill)
    asset.creationDate asset noteManager

/-- Selecting `asset`: its photo becomes the current one and nothing else
changes. -/
def select (self : NoteTakingViewModel) (noteManager : NoteManager) (asset : PHAsset) :
    NoteTakingViewModel :=
  { self with currentSelectedPhoto := some (self.fetchedPhoto noteManager asset) }

section SetCurrentSelectedPhoto

variable {self : NoteTakingViewModel} {indexPath : IndexPath} (noteManager : NoteManager)

/-- A row without an asset, or no photo manager: the completion is called at
once, as if the photo had been selected. -/
theorem setCurrentSelectedPhoto_of_no_asset (missing : self.assetAt indexPath.item = none)
    (reply : ImageReply) :
    self.setCurrentSelectedPhoto noteManager indexPath reply = .completed := by
  cases held : self.photoManager with
  | none => simp [setCurrentSelectedPhoto, held]
  | some manager =>
      rw [assetAt_of_manager held, List.getElem?_eq_none_iff] at missing
      simp [setCurrentSelectedPhoto, held, missing]

theorem setCurrentSelectedPhoto_of_nil {asset : PHAsset}
    (found : self.assetAt indexPath.item = some asset) :
    self.setCurrentSelectedPhoto noteManager indexPath .nil = .unfetched := by
  obtain ⟨manager, held, atRow⟩ := manager_of_assetAt found
  have inRange := (List.getElem?_eq_some_iff.mp atRow).1
  simp [setCurrentSelectedPhoto, held, inRange, PhotoManager.fetchPhoto]

theorem setCurrentSelectedPhoto_of_delivered {manager : PhotoManager} {asset : PHAsset}
    (held : self.photoManager = some manager)
    (found : self.assetAt indexPath.item = some asset) :
    self.setCurrentSelectedPhoto noteManager indexPath .delivered =
      .loading (self.select noteManager asset) manager asset := by
  rw [assetAt_of_manager held] at found
  have inRange := (List.getElem?_eq_some_iff.mp found).1
  simp only [setCurrentSelectedPhoto, held, inRange, if_true, PhotoManager.fetchPhoto, found,
    requestImage_delivered, Option.map_some, Option.getD_some, select, fetchedPhoto]
  rfl

end SetCurrentSelectedPhoto

/-! ### Cells -/

/-- A cell view model as `getCellViewModel` builds it for a row: a thumbnail of
the asset there, and the flag of its record. -/
def FreshCell (self : NoteTakingViewModel) (noteManager : NoteManager) (row : Nat)
    (cell : NoteTakingPhotoCellViewModel) : Prop :=
  ∃ asset, self.assetAt row = some asset ∧
    cell.photo = some (.requested asset self.thumbnailSize .aspectFill) ∧
    cell.hasNote = noteManager.hasNote asset.localIdentifier

/-- `after` is `before` once cells were asked for and highlighted: a cached cell
is an old one with another highlight, or a fresh one, and no row is dropped. -/
structure Redrawn (noteManager : NoteManager) (before after : NoteTakingViewModel) : Prop where
  frame : after = { before with cellViewModels := after.cellViewModels }
  cells : ∀ row cell, after.cellViewModels row = some cell →
    (∃ old, before.cellViewModels row = some old ∧ cell.photo = old.photo ∧
      cell.hasNote = old.hasNote) ∨ before.FreshCell noteManager row cell
  kept : ∀ row, (before.cellViewModels row).isSome → (after.cellViewModels row).isSome

namespace Redrawn

variable {noteManager : NoteManager} {before middle after : NoteTakingViewModel}

theorem refl (noteManager : NoteManager) (self : NoteTakingViewModel) :
    Redrawn noteManager self self where
  frame := rfl
  cells _ cell held := Or.inl ⟨cell, held, rfl, rfl⟩
  kept _ held := held

theorem photoManager (redrawn : Redrawn noteManager before after) :
    after.photoManager = before.photoManager := by rw [redrawn.frame]

theorem selectedIndexPath (redrawn : Redrawn noteManager before after) :
    after.selectedIndexPath = before.selectedIndexPath := by rw [redrawn.frame]

theorem currentSelectedPhoto (redrawn : Redrawn noteManager before after) :
    after.currentSelectedPhoto = before.currentSelectedPhoto := by rw [redrawn.frame]

theorem numberOfItems (redrawn : Redrawn noteManager before after) :
    after.numberOfItems = before.numberOfItems := by rw [redrawn.frame]; rfl

theorem assetAt (redrawn : Redrawn noteManager before after) (row : Nat) :
    after.assetAt row = before.assetAt row := by rw [redrawn.frame]; rfl

theorem freshCell_iff (redrawn : Redrawn noteManager before after) {row : Nat}
    {cell : NoteTakingPhotoCellViewModel} :
    after.FreshCell noteManager row cell ↔ before.FreshCell noteManager row cell := by
  rw [redrawn.frame]
  rfl

theorem trans (first : Redrawn noteManager before middle)
    (second : Redrawn noteManager middle after) : Redrawn noteManager before after where
  frame := by rw [second.frame, first.frame]
  cells row cell held := by
    rcases second.cells row cell held with ⟨mid, heldMid, photo, hasNote⟩ | fresh
    · rcases first.cells row mid heldMid with
        ⟨old, heldOld, photo', hasNote'⟩ | ⟨asset, found, p, n⟩
      · exact Or.inl ⟨old, heldOld, photo.trans photo', hasNote.trans hasNote'⟩
      · exact Or.inr ⟨asset, found, photo.trans p, hasNote.trans n⟩
    · exact Or.inr (first.freshCell_iff.mp fresh)
  kept row held := second.kept row (first.kept row held)

end Redrawn

section Cells

variable {self : NoteTakingViewModel} {indexPath : IndexPath} (noteManager : NoteManager)

/-- The guard of `getCellViewModel` lets a photo through exactly when the row has
an asset and its thumbnail is delivered. -/
theorem guardedPhoto_eq (reply : ImageReply) :
    self.guardedPhoto noteManager indexPath reply =
      match reply with
      | .delivered => (self.assetAt indexPath.item).map (self.fetchedPhoto noteManager)
      | .nil => none := by
  cases held : self.photoManager with
  | none => cases reply <;> simp [guardedPhoto, assetAt, held]
  | some manager =>
      rw [assetAt_of_manager held]
      cases found : manager.fetchResult[indexPath.item]? with
      | none =>
          have outside := List.getElem?_eq_none_iff.mp found
          cases reply <;> simp [guardedPhoto, held, outside]
      | some asset =>
          have inRange := (List.getElem?_eq_some_iff.mp found).1
          simp only [guardedPhoto, held, inRange, if_true, PhotoManager.fetchPhoto, found]
          cases reply <;> rfl

theorem getCellViewModel_of_no_asset (missing : self.assetAt indexPath.item = none)
    (reply : ImageReply) :
    self.getCellViewModel noteManager indexPath reply =
      (self, .detached (.init none indexPath self.selectedIndexPath noteManager)) := by
  have none : self.guardedPhoto noteManager indexPath reply = none := by
    cases reply <;> simp [guardedPhoto_eq, missing]
  simp only [getCellViewModel, none]

theorem getCellViewModel_of_nil :
    self.getCellViewModel noteManager indexPath .nil =
      (self, .detached (.init none indexPath self.selectedIndexPath noteManager)) := by
  simp only [getCellViewModel, guardedPhoto_eq]

theorem getCellViewModel_of_cached {asset : PHAsset} {cell : NoteTakingPhotoCellViewModel}
    (found : self.assetAt indexPath.item = some asset)
    (cached : self.cellViewModels indexPath.item = some cell) :
    self.getCellViewModel noteManager indexPath .delivered =
      (self, .cached indexPath.item) := by
  simp only [getCellViewModel, guardedPhoto_eq, found, Option.map_some,
    IndexPath.row_eq_item, cached]

/-- The cell view model that is built and cached for a row that has none. -/
def newCell (self : NoteTakingViewModel) (noteManager : NoteManager) (indexPath : IndexPath)
    (asset : PHAsset) : NoteTakingPhotoCellViewModel :=
  .init (some (self.fetchedPhoto noteManager asset)) indexPath self.selectedIndexPath noteManager

theorem getCellViewModel_of_uncached {asset : PHAsset}
    (found : self.assetAt indexPath.item = some asset)
    (uncached : self.cellViewModels indexPath.item = none) :
    self.getCellViewModel noteManager indexPath .delivered =
      ({ self with
          cellViewModels := Function.update self.cellViewModels indexPath.item
            (some (self.newCell noteManager indexPath asset)) },
        .cached indexPath.item) := by
  simp only [getCellViewModel, guardedPhoto_eq, found, Option.map_some,
    IndexPath.row_eq_item, uncached]
  rfl

theorem freshCell_newCell {asset : PHAsset} (found : self.assetAt indexPath.item = some asset) :
    self.FreshCell noteManager indexPath.item (self.newCell noteManager indexPath asset) := by
  refine ⟨asset, found, rfl, ?_⟩
  have read := noteManager.map_read_getNote asset.localIdentifier
  cases noted : noteManager.getNote asset.localIdentifier with
  | none =>
      rw [noted, Option.map_none] at read
      simp [newCell, NoteTakingPhotoCellViewModel.init, fetchedPhoto, Photo.init, noted,
        NoteManager.hasNote, ← read]
  | some note =>
      rw [noted, Option.map_some] at read
      simp [newCell, NoteTakingPhotoCellViewModel.init, fetchedPhoto, Photo.init, noted,
        NoteManager.hasNote, ← read]

theorem redrawn_getCellViewModel (reply : ImageReply) :
    Redrawn noteManager self (self.getCellViewModel noteManager indexPath reply).1 := by
  cases found : self.assetAt indexPath.item with
  | none =>
      rw [getCellViewModel_of_no_asset noteManager found]
      exact .refl noteManager self
  | some asset =>
      cases reply with
      | nil =>
          rw [getCellViewModel_of_nil]
          exact .refl noteManager self
      | delivered =>
          cases cached : self.cellViewModels indexPath.item with
          | some cell =>
              rw [getCellViewModel_of_cached noteManager found cached]
              exact .refl noteManager self
          | none =>
              rw [getCellViewModel_of_uncached noteManager found cached]
              refine ⟨rfl, ?_, ?_⟩
              · intro row cell held
                dsimp only at held
                by_cases same : row = indexPath.item
                · subst same
                  rw [Function.update_self, Option.some.injEq] at held
                  subst held
                  exact Or.inr (freshCell_newCell noteManager found)
                · rw [Function.update_of_ne same] at held
                  exact Or.inl ⟨cell, held, rfl, rfl⟩
              · intro row held
                by_cases same : row = indexPath.item
                · subst same
                  simp
                · simpa [Function.update_of_ne same] using held

theorem modifyCell_cellViewModels (self : NoteTakingViewModel) (row : Nat)
    (assign : NoteTakingPhotoCellViewModel → NoteTakingPhotoCellViewModel) (other : Nat) :
    (self.modifyCell row assign).cellViewModels other =
      if other = row then (self.cellViewModels row).map assign
      else self.cellViewModels other := by
  simp [modifyCell, Function.update_apply]

/-- An assignment is not seen through a property that it does not change. -/
theorem map_assigned {β : Type*} {cells : Nat → Option NoteTakingPhotoCellViewModel}
    {assign : NoteTakingPhotoCellViewModel → NoteTakingPhotoCellViewModel}
    {property : NoteTakingPhotoCellViewModel → β}
    (unchanged : ∀ cell, property (assign cell) = property cell) (row other : Nat) :
    (Function.update cells row ((cells row).map assign) other).map property =
      (cells other).map property := by
  rw [Function.update_apply]
  split_ifs with same
  · rw [Option.map_map, same]
    exact congrFun (congrArg Option.map (funext unchanged)) (cells row)
  · rfl

theorem isSome_modifyCell (self : NoteTakingViewModel) (row : Nat)
    (assign : NoteTakingPhotoCellViewModel → NoteTakingPhotoCellViewModel) (other : Nat) :
    ((self.modifyCell row assign).cellViewModels other).isSome =
      (self.cellViewModels other).isSome := by
  rw [modifyCell_cellViewModels]
  split_ifs with same
  · rw [same, Option.isSome_map]
  · rfl

theorem redrawn_setIsSelected (cell : CellReference) (selected : Bool) :
    Redrawn noteManager self (self.setIsSelected cell selected) := by
  cases cell with
  | detached cell => exact .refl noteManager self
  | cached row =>
      refine ⟨rfl, ?_, ?_⟩
      · intro other cell held
        simp only [setIsSelected, modifyCell_cellViewModels] at held
        split_ifs at held with same
        · subst same
          obtain ⟨old, heldOld, rfl⟩ := Option.map_eq_some_iff.mp held
          exact Or.inl ⟨old, heldOld, rfl, rfl⟩
        · exact Or.inl ⟨cell, held, rfl, rfl⟩
      · intro other held
        simpa only [setIsSelected, isSome_modifyCell] using held

end Cells

/-! ### Highlights -/

/-- The highlight flag of the cell cached for a row, if one is. -/
def highlightAt (self : NoteTakingViewModel) (row : Nat) : Option Bool :=
  (self.cellViewModels row).map NoteTakingPhotoCellViewModel.isSelected

/-- Asking for a row's cell gets through to the cache: the row has an asset and
its thumbnail is delivered. -/
def Fetches (self : NoteTakingViewModel) (indexPath : IndexPath) (reply : ImageReply) : Prop :=
  reply = .delivered ∧ (self.assetAt indexPath.item).isSome

instance (self : NoteTakingViewModel) (indexPath : IndexPath) (reply : ImageReply) :
    Decidable (self.Fetches indexPath reply) :=
  inferInstanceAs (Decidable (_ ∧ _))

/-- Ask for a row's cell and set its highlight. -/
def highlight (self : NoteTakingViewModel) (noteManager : NoteManager) (indexPath : IndexPath)
    (reply : ImageReply) (selected : Bool) : NoteTakingViewModel :=
  let (viewModel, cell) := self.getCellViewModel noteManager indexPath reply
  viewModel.setIsSelected cell selected

section Highlights

variable {self : NoteTakingViewModel} {indexPath : IndexPath} {reply : ImageReply}
  (noteManager : NoteManager)

theorem redrawn_highlight (indexPath : IndexPath) (reply : ImageReply) (selected : Bool) :
    Redrawn noteManager self (self.highlight noteManager indexPath reply selected) :=
  (redrawn_getCellViewModel noteManager reply).trans
    (redrawn_setIsSelected noteManager _ selected)

omit noteManager in
theorem Redrawn.fetches_iff {noteManager : NoteManager} {before after : NoteTakingViewModel}
    (redrawn : Redrawn noteManager before after) :
    after.Fetches indexPath reply ↔ before.Fetches indexPath reply := by
  rw [Fetches, Fetches, redrawn.assetAt]

/-- Without an asset or a thumbnail the caller gets a throw-away cell. -/
theorem getCellViewModel_of_not_fetches (unfetched : ¬ self.Fetches indexPath reply) :
    self.getCellViewModel noteManager indexPath reply =
      (self, .detached (.init none indexPath self.selectedIndexPath noteManager)) := by
  cases found : self.assetAt indexPath.item with
  | none => exact getCellViewModel_of_no_asset noteManager found reply
  | some asset =>
      cases reply with
      | nil => exact getCellViewModel_of_nil noteManager
      | delivered => exact absurd ⟨rfl, by simp [found]⟩ unfetched

/-- With both, the row has a cached cell from then on: the one it had, or else a
new one. -/
theorem getCellViewModel_of_fetches (fetches : self.Fetches indexPath reply) :
    ∃ asset, self.assetAt indexPath.item = some asset ∧
      self.getCellViewModel noteManager indexPath reply =
        ({ self with
            cellViewModels := Function.update self.cellViewModels indexPath.item
              (some ((self.cellViewModels indexPath.item).getD
                (self.newCell noteManager indexPath asset))) },
          .cached indexPath.item) := by
  obtain ⟨rfl, hasAsset⟩ := fetches
  obtain ⟨asset, found⟩ := Option.isSome_iff_exists.mp hasAsset
  refine ⟨asset, found, ?_⟩
  cases cached : self.cellViewModels indexPath.item with
  | none => exact getCellViewModel_of_uncached noteManager found cached
  | some cell =>
      rw [getCellViewModel_of_cached noteManager found cached, Option.getD_some, ← cached,
        Function.update_eq_self]

/-- A flag set on a throw-away cell is lost. -/
theorem highlight_of_not_fetches (unfetched : ¬ self.Fetches indexPath reply)
    (selected : Bool) : self.highlight noteManager indexPath reply selected = self := by
  simp only [highlight, getCellViewModel_of_not_fetches noteManager unfetched, setIsSelected]

theorem highlightAt_getCellViewModel (indexPath : IndexPath) (reply : ImageReply) (row : Nat) :
    (self.getCellViewModel noteManager indexPath reply).1.highlightAt row =
      if row = indexPath.item ∧ self.Fetches indexPath reply then
        some ((self.highlightAt row).getD (decide (indexPath = self.selectedIndexPath)))
      else self.highlightAt row := by
  by_cases fetches : self.Fetches indexPath reply
  · obtain ⟨asset, -, got⟩ := getCellViewModel_of_fetches noteManager fetches
    simp only [got, fetches, and_true, highlightAt, Function.update_apply]
    split_ifs with same
    · subst same
      cases self.cellViewModels indexPath.item <;> rfl
    · rfl
  · simp only [getCellViewModel_of_not_fetches noteManager fetches, fetches, and_false, if_false]

theorem highlightAt_highlight (indexPath : IndexPath) (reply : ImageReply) (selected : Bool)
    (row : Nat) :
    (self.highlight noteManager indexPath reply selected).highlightAt row =
      if row = indexPath.item ∧ self.Fetches indexPath reply then some selected
      else self.highlightAt row := by
  by_cases fetches : self.Fetches indexPath reply
  · obtain ⟨asset, -, got⟩ := getCellViewModel_of_fetches noteManager fetches
    simp only [highlight, got, setIsSelected, fetches, and_true, highlightAt,
      modifyCell_cellViewModels, Function.update_self, Option.map_some]
    split_ifs with same
    · rfl
    · rw [Function.update_of_ne same]
  · simp only [highlight_of_not_fetches noteManager fetches, fetches, and_false, if_false]

/-- Asking for a cell leaves the cells that are cached as they are. -/
theorem getCellViewModel_keeps (indexPath : IndexPath) (reply : ImageReply) {row : Nat}
    {cell : NoteTakingPhotoCellViewModel} (cached : self.cellViewModels row = some cell) :
    (self.getCellViewModel noteManager indexPath reply).1.cellViewModels row = some cell := by
  by_cases fetches : self.Fetches indexPath reply
  · obtain ⟨asset, -, got⟩ := getCellViewModel_of_fetches noteManager fetches
    simp only [got, Function.update_apply]
    split_ifs with same
    · rw [← same, cached, Option.getD_some]
    · exact cached
  · rw [getCellViewModel_of_not_fetches noteManager fetches]
    exact cached

end Highlights

/-! ### The exposed note -/

/-- The title and detail that `setSelectedPhotoInfo` exposes for a photo. -/
def exposedNote (noteManager : NoteManager) (photo : Option Photo) :
    Option String × Option String :=
  NoteManager.shownNote ((photo.bind Photo.note).map noteManager.read)

/-- A photo whose note is the one that would be looked up now exposes its record. -/
theorem exposedNote_of_getNote {noteManager : NoteManager} {photo : Photo}
    (upToDate : photo.note = noteManager.getNote photo.photoId) :
    exposedNote noteManager (some photo) =
      NoteManager.shownNote (noteManager.row photo.photoId) := by
  rw [exposedNote, Option.bind_some, upToDate, noteManager.map_read_getNote]

/-- The current photo with a delivered image; a `nil` leaves the image it has. -/
def withImage (photo : Option Photo) : Option UIImage → Option Photo
  | some image => photo.map fun photo => { photo with photo := image }
  | none => photo

@[simp] theorem withImage_map_photoId (photo : Option Photo) (image : Option UIImage) :
    (withImage photo image).map Photo.photoId = photo.map Photo.photoId := by
  cases image with
  | none => rfl
  | some image => cases photo <;> rfl

theorem withImage_map_asset (photo : Option Photo) (image : Option UIImage) :
    (withImage photo image).map Photo.asset = photo.map Photo.asset := by
  cases image with
  | none => rfl
  | some image => cases photo <;> rfl

section LargeImageLoaded

variable [DateFormatter]

theorem setSelectedPhotoInfo_eq (self : NoteTakingViewModel) (noteManager : NoteManager) :
    self.setSelectedPhotoInfo noteManager =
      { self with
        photoCreatedData := self.currentSelectedPhoto.map Photo.getFormattedCreationDate
        largePhoto := self.currentSelectedPhoto.map Photo.photo
        noteTitle := (exposedNote noteManager self.currentSelectedPhoto).1
        noteDetail := (exposedNote noteManager self.currentSelectedPhoto).2 } := by
  cases found : (self.currentSelectedPhoto.bind Photo.note).map noteManager.read with
  | none => simp only [setSelectedPhotoInfo, exposedNote, found, NoteManager.shownNote]
  | some note =>
      simp only [setSelectedPhotoInfo, exposedNote, found, NoteManager.shownNote]
      split_ifs <;> rfl

/-- The view model after the handler of a load: the image goes to whatever photo
is current, whose data are exposed, and to the cell of the captured row. -/
theorem largeImageLoaded_eq (self : NoteTakingViewModel) (noteManager : NoteManager)
    (indexPath : IndexPath) (image : Option UIImage) :
    self.largeImageLoaded noteManager indexPath image =
      let photo := withImage self.currentSelectedPhoto image
      { self with
        currentSelectedPhoto := photo
        photoCreatedData := photo.map Photo.getFormattedCreationDate
        largePhoto := photo.map Photo.photo
        noteTitle := (exposedNote noteManager photo).1
        noteDetail := (exposedNote noteManager photo).2
        cellViewModels := Function.update self.cellViewModels indexPath.item
          ((self.cellViewModels indexPath.item).map fun cell => { cell with photo := image }) } := by
  cases image with
  | none => simp only [largeImageLoaded, setSelectedPhotoInfo_eq]; rfl
  | some image => simp only [largeImageLoaded, setSelectedPhotoInfo_eq]; rfl

end LargeImageLoaded

/-! ### Saving -/

section SaveNote

/-- The detail as it is stored: the placeholder is stored as the empty string. -/
def noteDetailText (self : NoteTakingViewModel) : Option String :=
  if self.noteDetail = some Constants.defaultNoteDetail then some "" else self.noteDetail

/-- The record that saving for `photo` writes. -/
def savedNote (self : NoteTakingViewModel) (photo : Photo) : Note :=
  NoteManager.newNote photo.photoId self.noteTitle self.noteDetailText

/-- The call of `NoteManager.saveNote` that saving for `photo` makes. -/
def saveNoteCall (self : NoteTakingViewModel) (photo : Photo) : SaveNoteCall :=
  ⟨photo.photoId, self.noteTitle, self.noteDetailText⟩

/-- The view model after the success callback of a save: the photo holds its
note, and the cell at the selected row, if there is one, the new flag. -/
def noteSaved (self : NoteTakingViewModel) (photo : Photo) : NoteTakingViewModel :=
  { self with
    currentSelectedPhoto := some { photo with note := some ⟨photo.photoId⟩ }
    cellViewModels := Function.update self.cellViewModels self.selectedIndexPath.item
      ((self.cellViewModels self.selectedIndexPath.item).map fun cell =>
        { cell with hasNote := (self.savedNote photo).hasNote }) }

/-- The cell at the selected row is cached. -/
def SelectedCellCached (self : NoteTakingViewModel) : Prop :=
  (self.cellViewModels self.selectedIndexPath.item).isSome

instance (self : NoteTakingViewModel) : Decidable self.SelectedCellCached :=
  inferInstanceAs (Decidable (_ = true))

variable {τ : Type*} {self : NoteTakingViewModel} {noteManager : NoteManager} {realm : Realm}
  {photo : Photo} (completion : Option String → NoteTakingViewModel → τ → τ) (state : τ)

theorem saveNote_of_no_photo (unselected : self.currentSelectedPhoto = none)
    (commit : CommitOutcome) :
    self.saveNote noteManager commit completion state =
      (noteManager, (self, completion (some "Cannot find selected photo") self state), none) := by
  simp only [saveNote, unselected]

theorem saveNote_of_no_realm (selected : self.currentSelectedPhoto = some photo)
    (closed : noteManager.realm = none) (commit : CommitOutcome) :
    self.saveNote noteManager commit completion state =
      (noteManager.afterCall (self.saveNoteCall photo) none, (self, state), none) := by
  simp only [saveNote, selected]
  exact NoteManager.saveNote_of_no_realm _ _ _ _ _ closed commit

theorem saveNote_of_not_idle (selected : self.currentSelectedPhoto = some photo)
    (held : noteManager.realm = some realm) (opened : ¬ realm.Idle) (commit : CommitOutcome) :
    self.saveNote noteManager commit completion state =
      (noteManager.afterCall (self.saveNoteCall photo) (some realm), (self, state),
        some ⟨"The Realm is already in a write transaction"⟩) := by
  simp only [saveNote, selected]
  exact NoteManager.saveNote_of_not_idle _ _ _ _ _ held opened commit

/-- The completion as the success callback calls it: not at all when the
selected row's cell is not cached. -/
def reportSuccess (self : NoteTakingViewModel) (photo : Photo) : τ :=
  if self.SelectedCellCached then completion none (self.noteSaved photo) state else state

/-- The committed table with the saved note in it. -/
def savedTable (self : NoteTakingViewModel) (photo : Photo) (realm : Realm) : NoteTable :=
  Function.update realm.committed photo.photoId (some (self.savedNote photo))

theorem saveNoteCallback_none (noteManager : NoteManager) :
    saveNoteCallback completion none noteManager (self, state) =
      (self, completion (some "Error: Save Note Failed") self state) := rfl

/-- The success callback, when the note it is given reads as the saved one. -/
theorem saveNoteCallback_some (selected : self.currentSelectedPhoto = some photo)
    (reads : noteManager.read ⟨photo.photoId⟩ = self.savedNote photo) :
    saveNoteCallback completion (some ⟨photo.photoId⟩) noteManager (self, state) =
      (self.noteSaved photo, self.reportSuccess completion state photo) := by
  cases cached : self.cellViewModels self.selectedIndexPath.item with
  | none =>
      have same : self.noteSaved photo =
          { self with
            currentSelectedPhoto := some { photo with note := some ⟨photo.photoId⟩ } } := by
        simp only [noteSaved, cached, Option.map_none]
        rw [← cached, Function.update_eq_self]
      simp [saveNoteCallback, selected, cached, same, reportSuccess, SelectedCellCached]
  | some cell =>
      have same : self.noteSaved photo = NoteTakingViewModel.modifyCell
          { self with
            currentSelectedPhoto := some { photo with note := some ⟨photo.photoId⟩ } }
          self.selectedIndexPath.item fun cellViewModel =>
            cellViewModel.updateCellViewModelNote (noteManager.read ⟨photo.photoId⟩) := by
        rw [reads]
        rfl
      simp [saveNoteCallback, selected, cached, same, reportSuccess, SelectedCellCached]

/-- Inside the write block the added note reads as it was filled in. -/
theorem read_inBlock (photo : Photo) :
    (NoteManager.inBlock noteManager realm photo.photoId self.noteTitle
      self.noteDetailText).read ⟨photo.photoId⟩ = self.savedNote photo := by
  simp [NoteManager.read, NoteManager.row, NoteManager.inBlock, Versioned.current, savedNote]

/-- A save that commits. -/
theorem saveNote_of_commit (selected : self.currentSelectedPhoto = some photo)
    (held : noteManager.realm = some realm) (idle : realm.Idle) :
    self.saveNote noteManager .succeeds completion state =
      (noteManager.afterCall (self.saveNoteCall photo)
          (some ⟨self.savedTable photo realm, none⟩),
        (self.noteSaved photo, self.reportSuccess completion state photo), none) := by
  have saved := NoteManager.saveNote_of_commit photo.photoId self.noteTitle self.noteDetailText
    (saveNoteCallback completion) (self, state) held idle
  rw [saveNoteCallback_some completion state selected (read_inBlock photo)] at saved
  simp only [saveNote, selected]
  exact saved

/-- A save whose commit throws: the success callback has run all the same, an
error is reported after it, and the transaction stays open. -/
theorem saveNote_of_throw (selected : self.currentSelectedPhoto = some photo)
    (held : noteManager.realm = some realm) (idle : realm.Idle) :
    self.saveNote noteManager .throws completion state =
      (noteManager.afterCall (self.saveNoteCall photo)
          (some ⟨realm.committed, some (self.savedTable photo realm)⟩),
        (self.noteSaved photo, completion (some "Error: Save Note Failed") (self.noteSaved photo)
          (self.reportSuccess completion state photo)), none) := by
  have saved := NoteManager.saveNote_of_throw photo.photoId self.noteTitle self.noteDetailText
    (saveNoteCallback completion) (self, state) held idle
  simp only at saved
  rw [saveNoteCallback_some completion state selected (read_inBlock photo),
    saveNoteCallback_none] at saved
  simp only [saveNote, selected]
  exact saved

end SaveNote

end NoteTakingViewModel

end Phonotes
