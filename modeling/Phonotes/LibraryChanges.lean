import Phonotes.Rows

/-!
Whether rows follow their photos when the library changes.

A change replaces the list of assets and nothing else: the cells stay cached for
their rows and the selection stays a number. So rows follow in runs whose steps
leave the photos of the cached rows and of the selected one where they are
(`KeepsRows`), whatever they do to the other rows.
-/

namespace Phonotes

open TransitionSystem NoteTakingViewModel

/-- A cell shows an image of the asset and the flag of its record. -/
structure CellAgrees (noteManager : NoteManager) (cell : NoteTakingPhotoCellViewModel)
    (asset : PHAsset) : Prop where
  photo : ∃ image, cell.photo = some image ∧ image.Depicts asset
  hasNote : cell.hasNote = noteManager.hasNote asset.localIdentifier

namespace App

/-- What a step has to do for the cached rows to keep their photos: a change
leaves them their assets, or none, and the current photo at the selected row, or
drops it; a delivery to one has an image of its asset; a save is for the photo of
the selected row and no other one. -/
structure KeepsRows (t : Transition App Event) : Prop where
  assets : ∀ changeDetails, t.event = .photoLibraryDidChange changeDetails →
    ∀ row, (t.before.viewModel.cellViewModels row).isSome →
      ∀ asset, t.before.nextAssetAt t.event row = some asset →
        t.before.viewModel.assetAt row = some asset
  selection : ∀ changeDetails, t.event = .photoLibraryDidChange changeDetails →
    ∀ photo, t.before.viewModel.currentSelectedPhoto = some photo →
      t.before.viewModel.assetAt t.before.viewModel.selectedIndexPath.item = some photo.asset →
      t.before.nextAssetAt t.event t.before.viewModel.selectedIndexPath.item =
          some photo.asset ∨
        ∀ row, t.before.nextAssetAt t.event row ≠ some photo.asset
  pictures : ∀ i reply cells load, t.event = .largeImageLoaded i reply cells →
    t.before.pendingLoads[i]? = some load →
      (t.before.viewModel.cellViewModels load.indexPath.item).isSome →
      ∀ asset, t.before.viewModel.assetAt load.indexPath.item = some asset →
        reply = .delivered ∧ load.asset = asset
  flags : ∀ call, t.before.writesNote t.event = some call →
    ∀ row, (t.before.viewModel.cellViewModels row).isSome →
      ∀ asset, t.before.viewModel.assetAt row = some asset →
        (row = t.before.viewModel.selectedIndexPath.item ↔
          asset.localIdentifier = call.photoId)

section Changes

variable [DateFormatter] {s s' : App} {e : Event}

/-- Every cached cell of a row with an asset agrees with it, and without a photo
manager no cell is cached. -/
structure CellsAgree (s : App) : Prop where
  agrees : ∀ row cell asset, s.viewModel.cellViewModels row = some cell →
    s.viewModel.assetAt row = some asset → CellAgrees s.noteManager cell asset
  uncached : s.viewModel.photoManager = none → ∀ row, s.viewModel.cellViewModels row = none

omit [DateFormatter] in
theorem CellsAgree.picture (agree : CellsAgree s) (keeps : KeepsRows ⟨s, e, s'⟩) {row : Nat}
    {cell : NoteTakingPhotoCellViewModel} {asset : PHAsset}
    (cached : s.viewModel.cellViewModels row = some cell)
    (found : s.viewModel.assetAt row = some asset) :
    ∃ image, s.nextPicture e row cell.photo = some image ∧ image.Depicts asset := by
  have same := (agree.agrees row cell asset cached found).photo
  cases e with
  | largeImageLoaded i reply cells =>
      cases pending : s.pendingLoads[i]? with
      | none => simpa only [nextPicture, pending] using same
      | some load =>
          simp only [nextPicture, pending]
          by_cases captured : row = load.indexPath.item
          · subst captured
            obtain ⟨rfl, rfl⟩ :=
              keeps.pictures i reply cells load rfl pending (by simp [cached]) asset found
            rw [if_pos rfl]
            exact ⟨_, rfl, UIImage.depicts_requested _ _ _⟩
          · rw [if_neg captured]
            exact same
  | _ => exact same

end Changes

end App

end Phonotes
