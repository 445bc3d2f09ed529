import Phonotes.Rows

/-!
Runs over a library that does not change, with taps on displayed cells.

Over such a library a row keeps its asset for good, so the cached cells and the
pending loads stay within it.
-/

namespace Phonotes

open TransitionSystem NoteTakingViewModel

/-- The assets that a library change brings. -/
def Event.fetchResultAfterChanges : Event → Option (List PHAsset)
  | .photoLibraryDidChange changeDetails => changeDetails
  | _ => none

/-- The cell that is tapped. -/
def Event.taps : Event → Option IndexPath
  | .didSelectItemAt indexPath _ _ => some indexPath
  | _ => none

namespace App

variable {s s' : App} {e : Event} {library : List PHAsset}

/-- A library change that comes leaves the assets as they are. -/
def KeepsLibrary (t : Transition App Event) : Prop :=
  ∀ fetchResult ∈ t.event.fetchResultAfterChanges, fetchResult = t.before.library

/-- A tap that comes is on a displayed cell, which may be a placeholder. -/
def TapsDisplayed (t : Transition App Event) : Prop :=
  ∀ indexPath ∈ t.event.taps, indexPath.item < t.before.viewModel.numberOfItems

instance : DecidablePred KeepsLibrary := fun _ => inferInstanceAs (Decidable (∀ _ ∈ _, _))

instance : DecidablePred TapsDisplayed := fun _ => inferInstanceAs (Decidable (∀ _ ∈ _, _))

/-- A displayed cell of a library has an asset. -/
theorem assetAt_of_displayed {indexPath : IndexPath} {manager : PhotoManager}
    (held : s.viewModel.photoManager = some manager)
    (displayed : indexPath.item < s.viewModel.numberOfItems) :
    ∃ asset, s.viewModel.assetAt indexPath.item = some asset := by
  simp only [NoteTakingViewModel.numberOfItems, held] at displayed
  exact ⟨_, (assetAt_of_manager held _).trans (List.getElem?_eq_getElem displayed)⟩

/-- What stays true of the photos over a fixed library. -/
structure Fixed (library : List PHAsset) (s : App) : Prop where
  device : s.library = library
  manager : ∀ manager, s.viewModel.photoManager = some manager → manager.fetchResult = library
  cells : ∀ row, (s.viewModel.cellViewModels row).isSome →
    ∃ asset, s.viewModel.assetAt row = some asset
  loads : ∀ load ∈ s.pendingLoads, s.viewModel.assetAt load.indexPath.item = some load.asset

theorem fixed_app (launch : Launch) : Fixed launch.library launch.app where
  device := rfl
  manager manager held := by
    simp only [Launch.app, App.viewDidLoad, NoteTakingViewModel.init] at held
    split_ifs at held
    cases held
    rfl
  cells _ cached := by cases cached
  loads _ member := by cases member

theorem Fixed.assetAt_of_manager (fixed : Fixed library s) {manager : PhotoManager}
    (held : s.viewModel.photoManager = some manager) (row : Nat) :
    s.viewModel.assetAt row = library[row]? := by
  rw [NoteTakingViewModel.assetAt_of_manager held, fixed.manager manager held]

theorem Fixed.getElem?_of_assetAt (fixed : Fixed library s) {row : Nat} {asset : PHAsset}
    (found : s.viewModel.assetAt row = some asset) : library[row]? = some asset := by
  obtain ⟨manager, held, -⟩ := manager_of_assetAt found
  rw [← fixed.assetAt_of_manager held, found]

section Steps

variable [DateFormatter]

/-- The device's library changes with a library change alone. -/
theorem library_of_stepped (stepped : Stepped s e s') :
    s'.library = e.fetchResultAfterChanges.getD s.library := by
  cases stepped with
  | largeImageLoaded _ => exact largeImageLoaded_library ..
  | endedEditing ended saved =>
      rw [saved.library]
      cases e <;> first | rfl | cases ended
  | beganEditing =>
      rw [textViewShouldBeginEditing_eq]
      rfl
  | willEndEditing =>
      rw [textViewShouldEndEditing_eq]
      rfl
  | _ => rfl

omit [DateFormatter] in
/-- The photo manager, once there is one, has the assets of the device. -/
theorem Fixed.nextPhotoManager (fixed : Fixed library s) (keeps : KeepsLibrary ⟨s, e, s'⟩)
    {manager : PhotoManager} (held : s.nextPhotoManager e = some manager) :
    manager.fetchResult = library := by
  cases e with
  | permissionResponse status bounds thumbnail =>
      cases status with
      | false => exact fixed.manager manager held
      | true =>
          obtain rfl := Option.some.inj held
          cases before : s.viewModel.photoManager with
          | none => exact fixed.device
          | some manager => exact fixed.manager manager before
  | photoLibraryDidChange changeDetails =>
      obtain ⟨old, before, rfl⟩ := Option.map_eq_some_iff.mp held
      cases changeDetails with
      | none => exact fixed.manager old before
      | some fetchResult => exact (keeps fetchResult rfl).trans fixed.device
  | _ => exact fixed.manager manager held

omit [DateFormatter] in
/-- Once there is a photo manager there always is. -/
theorem nextPhotoManager_isSome (held : s.viewModel.photoManager.isSome) :
    (s.nextPhotoManager e).isSome := by
  cases e with
  | permissionResponse status bounds thumbnail =>
      cases status with
      | false => exact held
      | true => rfl
  | photoLibraryDidChange changeDetails => simpa [App.nextPhotoManager] using held
  | _ => exact held

/-- A row keeps its asset. -/
theorem Fixed.assetAt_step (fixed : Fixed library s) (keeps : KeepsLibrary ⟨s, e, s'⟩)
    (stepped : Stepped s e s') {row : Nat} {asset : PHAsset}
    (found : s.viewModel.assetAt row = some asset) :
    s'.viewModel.assetAt row = some asset := by
  obtain ⟨next, nextHeld⟩ : ∃ next, s.nextPhotoManager e = some next :=
    Option.isSome_iff_exists.mp (nextPhotoManager_isSome (photoManager_isSome found))
  rw [assetAt_of_stepped stepped, nextAssetAt, nextHeld, Option.bind_some,
    fixed.nextPhotoManager keeps nextHeld]
  exact fixed.getElem?_of_assetAt found

/-- A load that starts is of the asset at its row. -/
theorem assetAt_of_startsLoad (stepped : Stepped s e s') {load : PendingLoad}
    (starts : s.startsLoad e = some load) :
    s'.viewModel.assetAt load.indexPath.item = some load.asset := by
  rw [assetAt_of_stepped stepped]
  cases e with
  | permissionResponse status bounds thumbnail =>
      cases status with
      | false => cases starts
      | true =>
          obtain ⟨asset, selected, started⟩ := Option.bind_eq_some_iff.mp starts
          obtain ⟨manager, held, rfl⟩ := Option.map_eq_some_iff.mp started
          cases thumbnail with
          | nil => cases selected
          | delivered =>
              have same : (s.withPhotoManager bounds).viewModel.photoManager =
                  s.nextPhotoManager (.permissionResponse true bounds .delivered) := by
                rw [withPhotoManager_eq]
                rfl
              simpa only [selects, nextAssetAt, NoteTakingViewModel.assetAt, same] using selected
  | didSelectItemAt indexPath thumbnail cells =>
      obtain ⟨asset, selected, started⟩ := Option.bind_eq_some_iff.mp starts
      obtain ⟨manager, held, rfl⟩ := Option.map_eq_some_iff.mp started
      cases thumbnail with
      | nil => cases selected
      | delivered =>
          simp only [selects] at selected
          split_ifs at selected
          exact selected
  | _ => cases starts

theorem fixed_step (fixed : Fixed library s) (keeps : KeepsLibrary ⟨s, e, s'⟩)
    (taken : s.step e = some s') : Fixed library s' := by
  obtain ⟨-, stepped⟩ := stepped_of_step taken
  have persists {row : Nat} {asset : PHAsset} (found : s.viewModel.assetAt row = some asset) :
      s'.viewModel.assetAt row = some asset := fixed.assetAt_step keeps stepped found
  refine ⟨?_, ?_, ?_, ?_⟩
  · rw [library_of_stepped stepped]
    cases changed : e.fetchResultAfterChanges with
    | none => exact fixed.device
    | some fetchResult => exact (keeps fetchResult changed).trans fixed.device
  · intro manager held
    exact fixed.nextPhotoManager keeps ((photoManager_of_stepped stepped).symm.trans held)
  · intro row isSome
    obtain ⟨cell, held⟩ := Option.isSome_iff_exists.mp isSome
    rcases cells_of_stepped stepped held with ⟨old, cached, -⟩ | ⟨asset, found, -⟩
    · obtain ⟨asset, found⟩ := fixed.cells row (by simp [cached])
      exact ⟨asset, persists found⟩
    · exact ⟨asset, found⟩
  · intro load member
    rw [pendingLoads_of_stepped stepped, List.mem_append, Option.mem_toList] at member
    rcases member with kept | started
    · have earlier : load ∈ s.pendingLoads := by
        cases e with
        | largeImageLoaded i reply cells => exact List.mem_of_mem_eraseIdx kept
        | _ => exact kept
      exact persists (fixed.loads load earlier)
    · exact assetAt_of_startsLoad stepped started

end Steps

end App

end Phonotes
