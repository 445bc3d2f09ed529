import Phonotes.Runs

/-!
The state that is keyed by rows.

The cached cells, the selection and the rows captured by pending loads are
positions in a list that the library may replace at any time. The laws here say
what a step does to each of them.
-/

namespace Phonotes

open TransitionSystem NoteTakingViewModel

namespace App

variable {s s' : App} {e : Event}

/-! ### The photo manager -/

/-- The photo manager after an event: a library change replaces its assets, and
the first authorised permission response creates it. -/
def nextPhotoManager (s : App) : Event → Option PhotoManager
  | .photoLibraryDidChange changeDetails =>
      s.viewModel.photoManager.map fun manager => manager.photoLibraryDidChange changeDetails
  | .permissionResponse true bounds _ =>
      some (s.viewModel.photoManager.getD (PhotoManager.init bounds s.library))
  | _ => s.viewModel.photoManager

theorem photoManager_of_stepped [DateFormatter] (stepped : Stepped s e s') :
    s'.viewModel.photoManager = s.nextPhotoManager e := by
  cases stepped with
  | firstUnselectable _ =>
      rw [withPhotoManager_eq]
      rfl
  | firstUnfetched _ =>
      rw [withPhotoManager_eq]
      rfl
  | firstSelected _ _ =>
      rw [withPhotoManager_eq]
      rfl
  | tapUnselectable _ _ => simp [nextPhotoManager]
  | largeImageLoaded _ => simp [nextPhotoManager]
  | cellForItemAt => exact (cellForItemAt_redrawn ..).photoManager
  | endedEditing ended saved =>
      rw [saved.photoManager]
      cases e <;> first | rfl | cases ended
  | beganEditing =>
      rw [textViewShouldBeginEditing_eq]
      rfl
  | willEndEditing =>
      rw [textViewShouldEndEditing_eq]
      rfl
  | _ => rfl

/-- The asset that an event leaves at a row. -/
def nextAssetAt (s : App) (e : Event) (row : Nat) : Option PHAsset :=
  (s.nextPhotoManager e).bind fun manager => manager.fetchResult[row]?

theorem assetAt_of_stepped [DateFormatter] (stepped : Stepped s e s') (row : Nat) :
    s'.viewModel.assetAt row = s.nextAssetAt e row := by
  simp only [NoteTakingViewModel.assetAt, nextAssetAt, photoManager_of_stepped stepped]

/-! ### The selected row -/

/-- The row that an event selects at once: that of a tap without an asset, or the
one captured by the load that is delivered. -/
def movesSelection (s : App) : Event → Option IndexPath
  | .didSelectItemAt indexPath _ _ =>
      if s.view.getAccessButtonIsHidden ∧ s.viewModel.assetAt indexPath.item = none then
        some indexPath
      else none
  | .largeImageLoaded i _ _ =>
      match s.pendingLoads[i]? with
      | some load => some (s.loadedIndexPath load)
      | none => none
  | _ => none

theorem selectedIndexPath_of_stepped [DateFormatter] (stepped : Stepped s e s') :
    s'.viewModel.selectedIndexPath =
      (s.movesSelection e).getD s.viewModel.selectedIndexPath := by
  cases stepped with
  | firstUnselectable _ =>
      rw [withPhotoManager_eq]
      rfl
  | firstUnfetched _ =>
      rw [withPhotoManager_eq]
      rfl
  | firstSelected _ _ =>
      rw [withPhotoManager_eq]
      rfl
  | tapIgnored shown => simp [movesSelection, shown]
  | tapUnselectable hidden missing => simp [movesSelection, hidden, missing]
  | tapUnfetched _ found => simp [movesSelection, found]
  | tapSelected _ _ found => simp [movesSelection, found, startLoad, select]
  | largeImageLoaded pending =>
      rw [largeImageLoaded_selectedIndexPath]
      simp [movesSelection, pending, loadedIndexPath]
  | cellForItemAt => exact (cellForItemAt_redrawn ..).selectedIndexPath
  | endedEditing ended saved =>
      rw [saved.selectedIndexPath]
      cases e <;> first | rfl | cases ended
  | beganEditing =>
      rw [textViewShouldBeginEditing_eq]
      rfl
  | willEndEditing =>
      rw [textViewShouldEndEditing_eq]
      rfl
  | _ => rfl

/-! ### The pending loads -/

/-- The load that an event starts. -/
def startsLoad (s : App) (e : Event) : Option PendingLoad :=
  match e with
  | .permissionResponse true _ _ =>
      (s.selects e).bind fun asset => (s.nextPhotoManager e).map fun manager =>
        ⟨manager, asset, s.viewModel.selectedIndexPath, .viewWillAppear⟩
  | .didSelectItemAt indexPath _ _ =>
      (s.selects e).bind fun asset => s.viewModel.photoManager.map fun manager =>
        ⟨manager, asset, indexPath, .didSelectItemAt⟩
  | _ => none

/-- The loads that stay pending. -/
def keptLoads (s : App) : Event → List PendingLoad
  | .largeImageLoaded i _ _ => s.pendingLoads.eraseIdx i
  | _ => s.pendingLoads

theorem pendingLoads_of_stepped [DateFormatter] (stepped : Stepped s e s') :
    s'.pendingLoads = s.keptLoads e ++ (s.startsLoad e).toList := by
  cases stepped with
  | @firstUnselectable bounds thumbnail missing =>
      have none : s.startsLoad (.permissionResponse true bounds thumbnail) = none := by
        cases thumbnail <;> simp [startsLoad, selects, missing]
      rw [none]
      exact (List.append_nil _).symm
  | firstUnfetched _ => exact (List.append_nil _).symm
  | @firstSelected bounds manager asset held found =>
      have next : s.nextPhotoManager (.permissionResponse true bounds .delivered) =
          some manager := by
        rw [← held, withPhotoManager_eq]
        rfl
      simp only [startsLoad, selects, found, next]
      rfl
  | @tapIgnored indexPath thumbnail cells shown =>
      have none : s.startsLoad (.didSelectItemAt indexPath thumbnail cells) = none := by
        cases thumbnail <;> simp [startsLoad, selects, shown]
      rw [none]
      exact (List.append_nil _).symm
  | @tapUnselectable indexPath thumbnail cells _ missing =>
      have none : s.startsLoad (.didSelectItemAt indexPath thumbnail cells) = none := by
        cases thumbnail <;> simp [startsLoad, selects, missing]
      rw [none]
      exact (List.append_nil _).symm
  | tapUnfetched _ _ => exact (List.append_nil _).symm
  | tapSelected hidden held found =>
      simp only [startsLoad, selects, hidden, if_true, found, held]
      rfl
  | largeImageLoaded _ =>
      rw [largeImageLoaded_pendingLoads]
      exact (List.append_nil _).symm
  | endedEditing ended saved =>
      rw [saved.pendingLoads]
      cases e <;> first | exact (List.append_nil _).symm | cases ended
  | beganEditing =>
      rw [textViewShouldBeginEditing_eq]
      exact (List.append_nil _).symm
  | willEndEditing =>
      rw [textViewShouldEndEditing_eq]
      exact (List.append_nil _).symm
  | _ => exact (List.append_nil _).symm

/-! ### The cached cells -/

/-- The event may reach the cached cells: it ends an edit, asks for a cell, delivers
a load, or completes a tap at once. -/
def touchesCells (s : App) : Event → Bool
  | .didSelectItemAt indexPath _ _ =>
      s.view.getAccessButtonIsHidden && (s.viewModel.assetAt indexPath.item).isNone
  | .largeImageLoaded _ _ _ => true
  | .cellForItemAt _ _ => true
  | .textFieldDidEndEditing _ => true
  | .textViewDidEndEditing _ => true
  | _ => false

/-- Any other event leaves the cells as they are. -/
theorem cellViewModels_of_untouched [DateFormatter] (untouched : s.touchesCells e = false)
    (stepped : Stepped s e s') : s'.viewModel.cellViewModels = s.viewModel.cellViewModels := by
  cases stepped with
  | firstUnselectable _ =>
      rw [withPhotoManager_eq]
      rfl
  | firstUnfetched _ =>
      rw [withPhotoManager_eq]
      rfl
  | firstSelected _ _ =>
      rw [withPhotoManager_eq]
      rfl
  | tapUnselectable hidden missing => simp [touchesCells, hidden, missing] at untouched
  | largeImageLoaded _ => cases untouched
  | cellForItemAt => cases untouched
  | endedEditing ended _ => cases e <;> cases ended <;> cases untouched
  | beganEditing => rw [textViewShouldBeginEditing_eq]
  | willEndEditing => rw [textViewShouldEndEditing_eq]
  | _ => rfl

theorem endsEditing_of_untouched (untouched : s.touchesCells e = false) :
    e.endsEditing = none := by
  cases e <;> first | rfl | cases untouched

/-- The picture of a row's cell after an event: a delivery replaces that of the
captured row. -/
def nextPicture (s : App) (e : Event) (row : Nat) (picture : Option UIImage) : Option UIImage :=
  match e with
  | .largeImageLoaded i reply _ =>
      match s.pendingLoads[i]? with
      | some load =>
          if row = load.indexPath.item then load.manager.loadLargeImage load.asset reply
          else picture
      | none => picture
  | _ => picture

/-- The flag of a row's cell after an event: the callback of a save replaces that
of the selected row. -/
def nextFlag (s : App) (e : Event) (row : Nat) (flag : Bool) : Bool :=
  match s.writesNote e with
  | none => flag
  | some call => if row = s.viewModel.selectedIndexPath.item then call.note.hasNote else flag

/-- A flag that was right for a row's asset stays right when a save through the
selected row is for that asset, and a save through another row is not. -/
theorem nextFlag_eq_hasNote [DateFormatter] (stepped : Stepped s e s') {row : Nat}
    {flag : Bool} {photoId : String} (before : flag = s.noteManager.hasNote photoId)
    (saves : ∀ call, s.writesNote e = some call →
      (row = s.viewModel.selectedIndexPath.item ↔ photoId = call.photoId)) :
    s.nextFlag e row flag = s'.noteManager.hasNote photoId := by
  rw [hasNote_of_stepped stepped, nextFlag]
  cases writes : s.writesNote e with
  | none => exact before
  | some call =>
      have selected := saves call writes
      by_cases isSelected : row = s.viewModel.selectedIndexPath.item
      · simp only [isSelected, selected.mp isSelected, if_true]
      · simp only [isSelected, mt selected.mpr isSelected, if_false]
        exact before

/-- A cell of `noteSaved` is an old one with the flag that was saved. -/
theorem cells_noteSaved {photo : Photo} {row : Nat} {cell : NoteTakingPhotoCellViewModel}
    (writes : s.writesNote e = some (s.screenCall photo.photoId))
    (cached : (s.editedViewModel.noteSaved photo).cellViewModels row = some cell) :
    ∃ old, s.viewModel.cellViewModels row = some old ∧ cell.photo = old.photo ∧
      cell.hasNote = s.nextFlag e row old.hasNote := by
  simp only [nextFlag, writes]
  simp only [noteSaved, Function.update_apply] at cached
  split_ifs at cached with isSelected
  · obtain ⟨old, wasCached, rfl⟩ := Option.map_eq_some_iff.mp cached
    have flag := congrArg (fun call => call.note.hasNote) (saveNoteCall_editedViewModel s photo)
    exact ⟨old, isSelected ▸ wasCached, rfl, flag.trans (if_pos isSelected).symm⟩
  · exact ⟨cell, cached, rfl, (if_neg isSelected).symm⟩

/-- Ending an edit changes cells by the flag of the save alone. -/
theorem Saved.cells {commit : CommitOutcome} (ended : e.endsEditing = some commit)
    (saved : Saved s commit s') {row : Nat} {cell : NoteTakingPhotoCellViewModel}
    (held : s'.viewModel.cellViewModels row = some cell) :
    ∃ old, s.viewModel.cellViewModels row = some old ∧ cell.photo = old.photo ∧
      cell.hasNote = s.nextFlag e row old.hasNote := by
  cases saved with
  | noPhoto unselected =>
      exact ⟨cell, held, rfl, by simp only [nextFlag, writesNote_of_no_photo unselected]⟩
  | noRealm _ closed => exact ⟨cell, held, rfl, by simp only [nextFlag, writesNote, closed]⟩
  | raised _ holds opened =>
      exact ⟨cell, held, rfl, by simp only [nextFlag, writesNote, holds, opened, if_false]⟩
  | committed selected holds idle =>
      exact cells_noteSaved (writesNote_of_idle ended selected holds idle) held
  | threw selected holds idle =>
      exact cells_noteSaved (writesNote_of_idle ended selected holds idle) held

/-- Ending an edit is not seen through a property of the cells other than the flag. -/
theorem Saved.map_cells {β : Type*} {commit : CommitOutcome}
    {property : NoteTakingPhotoCellViewModel → β}
    (unchanged : ∀ cell flag, property { cell with hasNote := flag } = property cell)
    (saved : Saved s commit s') (row : Nat) :
    (s'.viewModel.cellViewModels row).map property =
      (s.viewModel.cellViewModels row).map property := by
  cases saved with
  | noPhoto _ => rfl
  | noRealm _ _ => rfl
  | raised _ _ _ => rfl
  | committed _ _ _ => exact map_assigned (fun cell => unchanged cell _) _ row
  | threw _ _ _ => exact map_assigned (fun cell => unchanged cell _) _ row

theorem nextPicture_of_endsEditing {commit : CommitOutcome}
    (ended : e.endsEditing = some commit) (row : Nat) (picture : Option UIImage) :
    s.nextPicture e row picture = picture := by
  cases e <;> first | rfl | cases ended

theorem nextFlag_of_unedited (unedited : e.endsEditing = none) (row : Nat) (flag : Bool) :
    s.nextFlag e row flag = flag := by
  simp only [nextFlag, writesNote_of_unedited unedited]

theorem nextPicture_of_untouched (untouched : s.touchesCells e = false) (row : Nat)
    (picture : Option UIImage) : s.nextPicture e row picture = picture := by
  cases e <;> first | rfl | cases untouched

/-- Where a cached cell comes from: it is the row's old one, with the picture and
flag of this event, or was built fresh. -/
theorem cells_of_stepped [DateFormatter] (stepped : Stepped s e s') {row : Nat}
    {cell : NoteTakingPhotoCellViewModel} (held : s'.viewModel.cellViewModels row = some cell) :
    (∃ old, s.viewModel.cellViewModels row = some old ∧
        cell.photo = s.nextPicture e row old.photo ∧
        cell.hasNote = s.nextFlag e row old.hasNote) ∨
      s'.viewModel.FreshCell s'.noteManager row cell := by
  cases touched : s.touchesCells e with
  | false =>
      have flag := nextFlag_of_unedited (s := s) (endsEditing_of_untouched touched)
      rw [cellViewModels_of_untouched touched stepped] at held
      exact Or.inl ⟨cell, held, (nextPicture_of_untouched touched _ _).symm, (flag _ _).symm⟩
  | true =>
      cases stepped with
      | @tapUnselectable indexPath thumbnail cells _ _ =>
          have flag := nextFlag_of_unedited (s := s)
            (e := .didSelectItemAt indexPath thumbnail cells) rfl
          have redrawn := didSelectCompletion_redrawn s indexPath cells
          simp only [flag]
          rcases redrawn.cells row cell held with old | fresh
          · exact Or.inl old
          · exact Or.inr (redrawn.freshCell_iff.mpr fresh)
      | @largeImageLoaded i load reply cells pending =>
          have flag := nextFlag_of_unedited (s := s) (e := .largeImageLoaded i reply cells) rfl
          have redrawn := largeImageLoaded_redrawn
            { s with pendingLoads := s.pendingLoads.eraseIdx i } load reply cells
          have loaded := largeImageLoaded_eq s.viewModel s.noteManager load.indexPath
            (load.manager.loadLargeImage load.asset reply)
          simp only [flag]
          rcases redrawn.cells row cell held with ⟨mid, wasCached, photo, hasNote⟩ | fresh
          · left
            simp only [updateSelectedIndexPath, loadedViewModel, loaded, Function.update_apply]
              at wasCached
            simp only [nextPicture, pending]
            split_ifs at wasCached with captured
            · obtain ⟨old, cached, rfl⟩ := Option.map_eq_some_iff.mp wasCached
              exact ⟨old, captured ▸ cached, by rw [photo, if_pos captured], hasNote⟩
            · exact ⟨mid, wasCached, by rw [photo, if_neg captured], hasNote⟩
          · right
            rw [largeImageLoaded_noteManager]
            exact redrawn.freshCell_iff.mpr fresh
      | @cellForItemAt indexPath thumbnail =>
          have flag := nextFlag_of_unedited (s := s) (e := .cellForItemAt indexPath thumbnail) rfl
          have redrawn := cellForItemAt_redrawn s indexPath thumbnail
          simp only [flag]
          rcases redrawn.cells row cell held with old | fresh
          · exact Or.inl old
          · exact Or.inr (redrawn.freshCell_iff.mpr fresh)
      | endedEditing ended saved =>
          left
          simp only [nextPicture_of_endsEditing ended]
          exact saved.cells ended held
      | tapIgnored shown => simp [touchesCells, shown] at touched
      | tapUnfetched _ found => simp [touchesCells, found] at touched
      | tapSelected _ _ found => simp [touchesCells, found] at touched
      | _ => cases touched

end App

end Phonotes
