import Phonotes.FixedLibrary

/-!
What the cached cells show.

A cached cell gets its picture twice: a thumbnail when it is built, and the
large image whenever a load for its row is delivered. The second write takes
the `nil` of a failed delivery as well. `pictureAt_of_stepped` is the converse of
`cells_of_stepped`: it says that a cell, once cached, stays.
-/

namespace Phonotes

open TransitionSystem NoteTakingViewModel

namespace NoteTakingViewModel

/-- The picture of the cell cached for a row, if one is. -/
def pictureAt (self : NoteTakingViewModel) (row : Nat) : Option (Option UIImage) :=
  (self.cellViewModels row).map NoteTakingPhotoCellViewModel.photo

variable {self : NoteTakingViewModel} {row : Nat} {picture : Option UIImage}

theorem pictureAt_setIsSelected (cell : CellReference) (selected : Bool) (row : Nat) :
    (self.setIsSelected cell selected).pictureAt row = self.pictureAt row := by
  cases cell with
  | detached cell => rfl
  | cached other =>
      apply map_assigned
      intro cell
      rfl

theorem pictureAt_getCellViewModel (noteManager : NoteManager) (indexPath : IndexPath)
    (reply : ImageReply) (cached : self.pictureAt row = some picture) :
    (self.getCellViewModel noteManager indexPath reply).1.pictureAt row = some picture := by
  obtain ⟨cell, held, rfl⟩ := Option.map_eq_some_iff.mp cached
  simp only [pictureAt, getCellViewModel_keeps noteManager indexPath reply held, Option.map_some]

theorem pictureAt_highlight (noteManager : NoteManager) (indexPath : IndexPath)
    (reply : ImageReply) (selected : Bool) (cached : self.pictureAt row = some picture) :
    (self.highlight noteManager indexPath reply selected).pictureAt row = some picture := by
  simp only [highlight, pictureAt_setIsSelected]
  exact pictureAt_getCellViewModel noteManager indexPath reply cached

end NoteTakingViewModel

namespace App

variable {s s' : App} {e : Event} {row : Nat} {picture : Option UIImage}

/-! ### The pictures after a step -/

theorem pictureAt_didSelectCompletion (self : App) (indexPath : IndexPath) (cells : CellReplies)
    (cached : self.viewModel.pictureAt row = some picture) :
    (self.didSelectCompletion indexPath cells).viewModel.pictureAt row = some picture := by
  rw [didSelectCompletion_viewModel]
  apply pictureAt_highlight
  apply pictureAt_highlight
  exact cached

theorem pictureAt_loadedViewModel [DateFormatter] (self : App) (load : PendingLoad)
    (image : ImageReply) (cached : self.viewModel.pictureAt row = some picture) :
    (self.loadedViewModel load image).pictureAt row =
      some (if row = load.indexPath.item then load.manager.loadLargeImage load.asset image
        else picture) := by
  simp only [loadedViewModel, largeImageLoaded_eq, pictureAt, Function.update_apply]
  obtain ⟨cell, held, rfl⟩ := Option.map_eq_some_iff.mp cached
  split_ifs with captured
  · rw [← captured, held]
    rfl
  · rw [held]
    rfl

/-- A cached cell stays, with its picture or that of a delivery for its row. -/
theorem pictureAt_of_stepped [DateFormatter] (stepped : Stepped s e s')
    (cached : s.viewModel.pictureAt row = some picture) :
    s'.viewModel.pictureAt row = some (s.nextPicture e row picture) := by
  cases touched : s.touchesCells e with
  | false =>
      rw [nextPicture_of_untouched touched, pictureAt,
        cellViewModels_of_untouched touched stepped]
      exact cached
  | true =>
      cases stepped with
      | tapUnselectable _ _ => exact pictureAt_didSelectCompletion _ _ _ cached
      | @largeImageLoaded i load image cells pending =>
          simp only [nextPicture, pending]
          rw [largeImageLoaded_eq_completion]
          have loaded := pictureAt_loadedViewModel
            { s with pendingLoads := s.pendingLoads.eraseIdx i } load image cached
          cases load.completion with
          | viewWillAppear => exact loaded
          | didSelectItemAt => exact pictureAt_didSelectCompletion _ _ _ loaded
      | cellForItemAt => exact pictureAt_getCellViewModel _ _ _ cached
      | endedEditing ended saved =>
          rw [nextPicture_of_endsEditing ended, ← cached]
          exact saved.map_cells (fun _ _ => rfl) row
      | tapIgnored shown => simp [touchesCells, shown] at touched
      | tapUnfetched _ found => simp [touchesCells, found] at touched
      | tapSelected _ _ found => simp [touchesCells, found] at touched
      | _ => cases touched

/-! ### Every cell shows its asset -/

/-- Every cached cell has a picture, of the asset at its row. -/
def Pictured (s : App) : Prop :=
  ∀ row cell, s.viewModel.cellViewModels row = some cell →
    ∃ asset image, s.viewModel.assetAt row = some asset ∧ cell.photo = some image ∧
      image.Depicts asset

/-- The load that this event answers with `nil`. -/
def failsLoad (s : App) : Event → Option PendingLoad
  | .largeImageLoaded i .nil _ => s.pendingLoads[i]?
  | _ => none

/-- A load that fails is for a row without a cached cell. -/
def FailsUncached (t : Transition App Event) : Prop :=
  ∀ load ∈ t.before.failsLoad t.event,
    t.before.viewModel.cellViewModels load.indexPath.row = none

instance : DecidablePred FailsUncached := fun _ => inferInstanceAs (Decidable (∀ _ ∈ _, _))

theorem eq_of_mem_failsLoad {load : PendingLoad} (fails : load ∈ s.failsLoad e) :
    ∃ i cells, e = .largeImageLoaded i .nil cells ∧ s.pendingLoads[i]? = some load := by
  cases e with
  | largeImageLoaded i image cells =>
      cases image with
      | delivered => cases fails
      | nil => exact ⟨i, cells, rfl, fails⟩
  | _ => cases fails

/-- The picture that an event leaves to a cached cell is of the asset at its row. -/
theorem depicts_nextPicture {library : List PHAsset} (fixed : Fixed library s)
    (fails : FailsUncached ⟨s, e, s'⟩) {cell : NoteTakingPhotoCellViewModel}
    (cached : s.viewModel.cellViewModels row = some cell) {asset : PHAsset} {image : UIImage}
    (found : s.viewModel.assetAt row = some asset) (had : cell.photo = some image)
    (depicts : image.Depicts asset) :
    ∃ image, s.nextPicture e row cell.photo = some image ∧ image.Depicts asset := by
  cases e with
  | largeImageLoaded i reply cells =>
      simp only [nextPicture]
      cases pending : s.pendingLoads[i]? with
      | none => exact ⟨image, had, depicts⟩
      | some load =>
          dsimp only
          split_ifs with captured
          · subst captured
            have same := fixed.loads load (List.mem_of_getElem? pending)
            obtain rfl : asset = load.asset := Option.some.inj (found.symm.trans same)
            cases reply with
            | delivered => exact ⟨_, rfl, UIImage.depicts_requested _ _ _⟩
            | nil =>
                have uncached := fails load pending
                exact absurd (cached.symm.trans uncached) (by simp)
          · exact ⟨image, had, depicts⟩
  | _ => exact ⟨image, had, depicts⟩

/-- Over a fixed library a step that starts with every cell pictured ends so exactly
when it fails no load of a cached row. -/
theorem pictured_iff_of_stepped [DateFormatter] {library : List PHAsset}
    (fixed : Fixed library s) (keeps : KeepsLibrary ⟨s, e, s'⟩) (pictured : Pictured s)
    (stepped : Stepped s e s') : Pictured s' ↔ FailsUncached ⟨s, e, s'⟩ := by
  constructor
  · intro pictured' load fails
    obtain ⟨i, cells, rfl, pending⟩ := eq_of_mem_failsLoad fails
    by_contra isCached
    obtain ⟨cell, cached⟩ := Option.ne_none_iff_exists'.mp isCached
    have held : s.viewModel.pictureAt load.indexPath.item = some cell.photo := by
      simpa [pictureAt] using ⟨cell, cached, rfl⟩
    have lost := pictureAt_of_stepped stepped held
    simp only [nextPicture, pending, if_true] at lost
    obtain ⟨after, heldAfter, blank⟩ := Option.map_eq_some_iff.mp lost
    obtain ⟨asset, image, -, had, -⟩ := pictured' _ after heldAfter
    exact absurd (had.symm.trans blank) (by simp [PhotoManager.loadLargeImage])
  · intro fails row cell held
    rcases cells_of_stepped stepped held with ⟨old, cached, photo, -⟩ | ⟨asset, found, photo, -⟩
    · obtain ⟨asset, image, found, had, depicts⟩ := pictured row old cached
      obtain ⟨next, has, depictsNext⟩ :=
        depicts_nextPicture fixed fails cached found had depicts
      exact ⟨asset, next, fixed.assetAt_step keeps stepped found, photo.trans has, depictsNext⟩
    · exact ⟨asset, _, found, photo, UIImage.depicts_requested _ _ _⟩

theorem pictured_app (launch : Launch) : Pictured launch.app := by
  intro row cell cached
  cases cached

/-- In a run over a fixed library every cached cell has a picture of its asset in
every state reached exactly when no load of a cached row fails. -/
theorem pictured_run_iff [DateFormatter] {launch : Launch}
    {history : List (Transition App Event)} (run : launch.Run history s)
    (keeps : ∀ t ∈ history, KeepsLibrary t) :
    (∀ t ∈ history, Pictured t.after) ↔ ∀ t ∈ history, FailsUncached t := by
  refine Run.forall_after_iff (fixed_app launch) (pictured_app launch) ?_ ?_ run keeps
  · intro s e s' keeps fixed taken
    exact fixed_step fixed keeps taken
  · intro s e s' keeps fixed pictured taken
    exact pictured_iff_of_stepped fixed keeps pictured (stepped_of_step taken).2

/-- The cell of the first row is displayed and the row tapped. -/
def displayThenTap (image : ImageReply) : List Event :=
  startup ++ [.cellForItemAt ⟨0⟩ .delivered,
    .didSelectItemAt ⟨0⟩ .delivered ⟨.delivered, .delivered⟩,
    .largeImageLoaded 0 image ⟨.delivered, .delivered⟩]

theorem pictured_run_iff_displayThenTap :
    ∃ history s, Launch.threePhotos.app.Plays (displayThenTap .delivered) history s ∧
      ∀ t ∈ history, Pictured t.after := by
  have plays : Launch.threePhotos.app.Plays (displayThenTap .delivered) _ _ := rfl
  exact ⟨_, _, plays,
    (@pictured_run_iff _ DateFormatter.plain _ _ plays.run (by decide)).mpr (by decide)⟩

/-- A failed load takes its picture from the cell that had one. -/
theorem exists_picture_lost :
    ∃ history s t, Launch.threePhotos.app.Plays (displayThenTap .nil) history s ∧ t ∈ history ∧
      (∀ t ∈ history, KeepsLibrary t) ∧
      t.before.viewModel.pictureAt 0 =
        some (some (.requested ⟨"a", none⟩ CGSize.zero .aspectFill)) ∧
      t.after.viewModel.pictureAt 0 = some none ∧ ¬ Pictured t.after := by
  have plays : Launch.threePhotos.app.Plays (displayThenTap .nil) _ _ := rfl
  refine ⟨_, _, _, plays, List.mem_of_mem_getLast? rfl, by decide, rfl, rfl, ?_⟩
  intro pictured
  obtain ⟨asset, image, -, had, -⟩ := pictured 0 _ rfl
  cases had

end App

end Phonotes
