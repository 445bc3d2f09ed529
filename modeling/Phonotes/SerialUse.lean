import Phonotes.FixedLibrary

/-!
Serial use: nothing is tapped, saved or selected while a load is pending.

Three places remember the selected photo (the selected row, the current photo and
the load on its way), and the flag of a record is cached by row but written by
id. Used serially over a fixed library, they agree whenever no load is pending.
-/

namespace Phonotes

open TransitionSystem NoteTakingViewModel

namespace App

variable {s s' : App} {e : Event} {library : List PHAsset}

/-- While a load is pending there is no tap, no end of an edit and no other
selection. -/
def Serial (t : Transition App Event) : Prop :=
  t.before.pendingLoads ≠ [] →
    t.event.taps = none ∧ t.event.endsEditing = none ∧ t.before.selects t.event = none

instance : DecidablePred Serial := fun _ => inferInstanceAs (Decidable (_ → _ ∧ _ ∧ _))

/-- The current photo is that of the selected row, and every cached cell has the
flag of the stored record of its row's photo. -/
structure Coherent (s : App) : Prop where
  current : ∀ photo, s.viewModel.currentSelectedPhoto = some photo →
    s.viewModel.assetAt s.viewModel.selectedIndexPath.item = some photo.asset ∧
      photo.photoId = photo.asset.localIdentifier
  flags : ∀ row cell, s.viewModel.cellViewModels row = some cell →
    ∃ asset, s.viewModel.assetAt row = some asset ∧
      cell.hasNote = ((s.noteManager.stored asset.localIdentifier).map Note.hasNote).getD false

/-! ### The current photo -/

/-- The asset of `currentSelectedPhoto`. -/
def currentAsset (s : App) : Option PHAsset :=
  s.viewModel.currentSelectedPhoto.map Photo.asset

theorem Saved.currentAsset {commit : CommitOutcome} (saved : Saved s commit s') :
    s'.currentAsset = s.currentAsset := by
  cases saved with
  | noPhoto _ => rfl
  | noRealm _ _ => rfl
  | raised _ _ _ => rfl
  | committed selected _ _ => simp [App.currentAsset, noteSaved, selected]
  | threw selected _ _ => simp [App.currentAsset, noteSaved, selected]

/-- The row that is selected once the load on its way is delivered. -/
def settledIndexPath (s : App) : IndexPath :=
  match s.pendingLoads with
  | [] => s.viewModel.selectedIndexPath
  | load :: _ => s.loadedIndexPath load

theorem settledIndexPath_of_nil (settled : s.pendingLoads = []) :
    s.settledIndexPath = s.viewModel.selectedIndexPath := by
  simp only [settledIndexPath, settled]

theorem settledIndexPath_congr (loads : s'.pendingLoads = s.pendingLoads)
    (selected : s'.viewModel.selectedIndexPath = s.viewModel.selectedIndexPath) :
    s'.settledIndexPath = s.settledIndexPath := by
  simp only [settledIndexPath, loads, loadedIndexPath, selected]

/-- What serial use keeps true over a fixed library. -/
structure Tidy (library : List PHAsset) (s : App) : Prop where
  fixed : Fixed library s
  single : s.pendingLoads.length ≤ 1
  photoId : s.currentPhotoId = s.currentAsset.map PHAsset.localIdentifier
  current : ∀ asset ∈ s.currentAsset,
    s.viewModel.assetAt s.settledIndexPath.item = some asset
  flags : ∀ row cell asset, s.viewModel.cellViewModels row = some cell →
    s.viewModel.assetAt row = some asset →
    cell.hasNote = s.noteManager.hasNote asset.localIdentifier
  store : s.noteManager.realm = none ∨ s.noteManager.Ready

theorem tidy_app (launch : Launch) : Tidy launch.library launch.app where
  fixed := fixed_app launch
  single := by
    show 0 ≤ 1
    omega
  photoId := rfl
  current _ member := by cases member
  flags _ _ _ cached := by cases cached
  store := by
    cases opened : launch.opened with
    | none => exact Or.inl (by simp [Launch.app, App.viewDidLoad, NoteManager.init, opened])
    | some table =>
        right
        simp only [Launch.app, App.viewDidLoad, opened]
        exact NoteManager.ready_init table

section Steps

variable [DateFormatter]

theorem currentAsset_of_stepped (stepped : Stepped s e s') :
    s'.currentAsset = (s.selects e).or s.currentAsset := by
  cases ended : e.endsEditing with
  | some commit =>
      rw [selects_of_endsEditing ended]
      cases stepped with
      | endedEditing _ saved => exact saved.currentAsset
      | _ => cases ended
  | none =>
      have current := currentSelectedPhoto_of_stepped ended stepped
      unfold currentAsset
      cases selected : s.selects e with
      | none =>
          rw [selected] at current
          obtain ⟨image, same⟩ := current
          rw [same, withImage_map_asset]
          rfl
      | some asset =>
          rw [selected] at current
          rw [current]
          rfl

omit [DateFormatter] in
theorem startsLoad_of_selects_none (unselected : s.selects e = none) : s.startsLoad e = none := by
  cases e with
  | permissionResponse status bounds thumbnail =>
      cases status with
      | true => simp [startsLoad, unselected]
      | false => rfl
  | didSelectItemAt indexPath thumbnail cells => simp [startsLoad, unselected]
  | _ => rfl

/-- A selection starts the load that will select the row of its asset. -/
theorem startsLoad_of_selects (stepped : Stepped s e s') {asset : PHAsset}
    (selected : s.selects e = some asset) :
    ∃ load, s.startsLoad e = some load ∧ load.asset = asset ∧
      s'.loadedIndexPath load = load.indexPath := by
  have stays := selectedIndexPath_of_stepped stepped
  cases e with
  | permissionResponse status bounds thumbnail =>
      cases status with
      | false => cases selected
      | true =>
          let manager := s.viewModel.photoManager.getD (PhotoManager.init bounds s.library)
          exact ⟨⟨manager, asset, s.viewModel.selectedIndexPath, .viewWillAppear⟩,
            by simp [startsLoad, selected, nextPhotoManager, manager], rfl, stays⟩
  | didSelectItemAt indexPath thumbnail cells =>
      cases thumbnail with
      | nil => cases selected
      | delivered =>
          have found := selected
          simp only [selects] at found
          split_ifs at found
          obtain ⟨manager, held, -⟩ := manager_of_assetAt found
          exact ⟨⟨manager, asset, indexPath, .didSelectItemAt⟩,
            by simp [startsLoad, selected, held], rfl, rfl⟩
  | _ => cases selected

/-- In serial use the load that a selection starts is the only one. -/
theorem pendingLoads_of_selects (serial : Serial ⟨s, e, s'⟩) (stepped : Stepped s e s')
    {asset : PHAsset} (selected : s.selects e = some asset) :
    ∃ load, s'.pendingLoads = [load] ∧ s'.loadedIndexPath load = load.indexPath ∧
      s'.viewModel.assetAt load.indexPath.item = some asset := by
  have settled : s.pendingLoads = [] := by
    by_contra pending
    have unselected := (serial pending).2.2
    simp [selected] at unselected
  have kept : s.keptLoads e = [] := by
    cases e <;> simp [keptLoads, settled]
  obtain ⟨load, starts, rfl, row⟩ := startsLoad_of_selects stepped selected
  refine ⟨load, ?_, row, assetAt_of_startsLoad stepped starts⟩
  rw [pendingLoads_of_stepped stepped, kept, starts]
  rfl

/-- Commits that succeed leave no transaction open. -/
theorem store_of_stepped (before : s.noteManager.realm = none ∨ s.noteManager.Ready)
    (succeeds : CommitSucceeds ⟨s, e, s'⟩) (stepped : Stepped s e s') :
    s'.noteManager.realm = none ∨ s'.noteManager.Ready := by
  rcases before with closed | ready
  · cases ended : e.endsEditing with
    | none =>
        rw [noteManager_of_stepped ended stepped]
        exact Or.inl closed
    | some commit =>
        cases stepped with
        | endedEditing _ saved =>
            cases saved with
            | noPhoto _ => exact Or.inl closed
            | noRealm _ _ => exact Or.inl rfl
            | raised _ held _ => simp [closed] at held
            | committed _ held _ => simp [closed] at held
            | threw _ held _ => simp [closed] at held
        | _ => cases ended
  · exact Or.inr (stored_of_stepped ready succeeds stepped).1

/-- The row to be selected stays, unless a selection is made. -/
theorem Tidy.settledIndexPath_step (tidy : Tidy library s)
    (displayed : TapsDisplayed ⟨s, e, s'⟩) (unselected : s.selects e = none)
    (managed : s.viewModel.photoManager.isSome) (stepped : Stepped s e s') :
    s'.settledIndexPath = s.settledIndexPath := by
  have selected := selectedIndexPath_of_stepped stepped
  have loads : s'.pendingLoads = s.keptLoads e := by
    rw [pendingLoads_of_stepped stepped, startsLoad_of_selects_none unselected,
      Option.toList_none, List.append_nil]
  cases e with
  | didSelectItemAt indexPath thumbnail cells =>
      obtain ⟨manager, held⟩ := Option.isSome_iff_exists.mp managed
      obtain ⟨asset, found⟩ := assetAt_of_displayed held (displayed indexPath rfl)
      refine settledIndexPath_congr loads ?_
      simpa [movesSelection, found] using selected
  | largeImageLoaded i reply cells =>
      cases stepped with
      | endedEditing ended _ => cases ended
      | @largeImageLoaded _ load _ _ pending =>
          -- The load that is delivered is the only one.
          obtain ⟨only, isOnly⟩ : ∃ only, s.pendingLoads = [only] := by
            have member := List.length_pos_of_mem (List.mem_of_getElem? pending)
            have single := tidy.single
            exact List.length_eq_one_iff.mp (by omega)
          have first : i = 0 := by
            have inRange := (List.getElem?_eq_some_iff.mp pending).1
            simp only [isOnly, List.length_singleton] at inRange
            omega
          subst first
          have same : only = load := by simpa [isOnly] using pending
          subst same
          have none : s.keptLoads (.largeImageLoaded 0 reply cells) = [] := by
            simp [keptLoads, isOnly]
          rw [settledIndexPath_of_nil (loads.trans none), selected]
          simp only [movesSelection, settledIndexPath, isOnly]
          rfl
  | _ => exact settledIndexPath_congr loads selected

omit [DateFormatter] in
/-- A save of serial use goes through the selected row, and through no other. -/
theorem Tidy.saves_selected (tidy : Tidy library s)
    (distinct : (library.map PHAsset.localIdentifier).Nodup) (serial : Serial ⟨s, e, s'⟩)
    {call : SaveNoteCall} (writes : s.writesNote e = some call) {row : Nat} {asset : PHAsset}
    (found : s.viewModel.assetAt row = some asset) :
    row = s.viewModel.selectedIndexPath.item ↔ asset.localIdentifier = call.photoId := by
  have saves : s.savesNote e = some call := by
    unfold writesNote at writes
    cases held : s.noteManager.realm with
    | none => simp [held] at writes
    | some realm =>
        simp only [held] at writes
        split_ifs at writes
        exact writes
  obtain ⟨ended, id, currentId, rfl⟩ := savesNote_eq_some_iff.mp saves
  have settled : s.pendingLoads = [] := by
    by_contra pending
    simp [(serial pending).2.1] at ended
  rw [tidy.photoId] at currentId
  obtain ⟨shown, isShown, rfl⟩ := Option.map_eq_some_iff.mp currentId
  have atSelected := tidy.current shown isShown
  rw [settledIndexPath_of_nil settled] at atSelected
  have inLibrary := tidy.fixed.getElem?_of_assetAt found
  have shownInLibrary := tidy.fixed.getElem?_of_assetAt atSelected
  constructor
  · intro same
    rw [same, atSelected] at found
    rw [← Option.some.inj found]
    rfl
  · intro same
    have inRange := (List.getElem?_eq_some_iff.mp inLibrary).1
    refine (List.getElem?_inj (by simpa using inRange) distinct).mp ?_
    simp only [List.getElem?_map, inLibrary, shownInLibrary, Option.map_some]
    exact congrArg some same

theorem Tidy.single_step (tidy : Tidy library s) (serial : Serial ⟨s, e, s'⟩)
    (stepped : Stepped s e s') : s'.pendingLoads.length ≤ 1 := by
  cases selected : s.selects e with
  | some asset =>
      obtain ⟨load, onlyLoad, -⟩ := pendingLoads_of_selects serial stepped selected
      simp [onlyLoad]
  | none =>
      rw [pendingLoads_of_stepped stepped, startsLoad_of_selects_none selected,
        Option.toList_none, List.append_nil]
      have single := tidy.single
      cases e with
      | largeImageLoaded i reply cells =>
          exact (List.length_eraseIdx_le s.pendingLoads i).trans single
      | _ => exact single

theorem Tidy.current_step (tidy : Tidy library s) (keeps : KeepsLibrary ⟨s, e, s'⟩)
    (displayed : TapsDisplayed ⟨s, e, s'⟩) (serial : Serial ⟨s, e, s'⟩)
    (stepped : Stepped s e s') {asset : PHAsset} (shown : s'.currentAsset = some asset) :
    s'.viewModel.assetAt s'.settledIndexPath.item = some asset := by
  rw [currentAsset_of_stepped stepped] at shown
  cases selected : s.selects e with
  | some other =>
      rw [selected, Option.some_or] at shown
      obtain rfl := Option.some.inj shown
      obtain ⟨load, onlyLoad, row, found⟩ := pendingLoads_of_selects serial stepped selected
      simp only [settledIndexPath, onlyLoad, row, found]
  | none =>
      rw [selected, Option.none_or] at shown
      have found := tidy.current asset shown
      rw [tidy.settledIndexPath_step displayed selected (photoManager_isSome found) stepped]
      exact tidy.fixed.assetAt_step keeps stepped found

theorem Tidy.flags_step (tidy : Tidy library s)
    (distinct : (library.map PHAsset.localIdentifier).Nodup) (keeps : KeepsLibrary ⟨s, e, s'⟩)
    (serial : Serial ⟨s, e, s'⟩) (stepped : Stepped s e s') {row : Nat}
    {cell : NoteTakingPhotoCellViewModel} {asset : PHAsset}
    (held : s'.viewModel.cellViewModels row = some cell)
    (found : s'.viewModel.assetAt row = some asset) :
    cell.hasNote = s'.noteManager.hasNote asset.localIdentifier := by
  rcases cells_of_stepped stepped held with ⟨old, cached, -, hasNote⟩ | ⟨other, atRow, -, hasNote⟩
  · obtain ⟨other, before⟩ := tidy.fixed.cells row (by simp [cached])
    obtain rfl := Option.some.inj
      (found.symm.trans (tidy.fixed.assetAt_step keeps stepped before))
    rw [hasNote]
    exact nextFlag_eq_hasNote stepped (tidy.flags row old asset cached before)
      fun call writes => tidy.saves_selected distinct serial writes before
  · obtain rfl := Option.some.inj (found.symm.trans atRow)
    exact hasNote

theorem tidy_step (distinct : (library.map PHAsset.localIdentifier).Nodup)
    (tidy : Tidy library s) (keeps : KeepsLibrary ⟨s, e, s'⟩)
    (displayed : TapsDisplayed ⟨s, e, s'⟩) (serial : Serial ⟨s, e, s'⟩)
    (succeeds : CommitSucceeds ⟨s, e, s'⟩) (taken : s.step e = some s') : Tidy library s' := by
  obtain ⟨-, stepped⟩ := stepped_of_step taken
  refine ⟨fixed_step tidy.fixed keeps taken, tidy.single_step serial stepped, ?_,
    fun asset => tidy.current_step keeps displayed serial stepped,
    fun row cell asset => tidy.flags_step distinct keeps serial stepped,
    store_of_stepped tidy.store succeeds stepped⟩
  rw [currentPhotoId_of_stepped stepped, currentAsset_of_stepped stepped, tidy.photoId]
  cases s.selects e <;> rfl

omit [DateFormatter] in
theorem Tidy.coherent (tidy : Tidy library s) (settled : s.pendingLoads = []) : Coherent s where
  current photo selected := by
    have shown : s.currentAsset = some photo.asset := by simp [currentAsset, selected]
    have found := tidy.current photo.asset shown
    have id := tidy.photoId
    rw [settledIndexPath_of_nil settled] at found
    rw [shown] at id
    exact ⟨found, by simpa [currentPhotoId, selected] using id⟩
  flags row cell cached := by
    obtain ⟨asset, found⟩ := tidy.fixed.cells row (by simp [cached])
    refine ⟨asset, found, (tidy.flags row cell asset cached found).trans ?_⟩
    have onDisk : s.noteManager.row = s.noteManager.stored := by
      rcases tidy.store with closed | ready
      · funext photoId
        simp [NoteManager.row, NoteManager.stored, closed]
      · exact NoteManager.row_of_ready ready
    rw [NoteManager.hasNote, onDisk]

/-- In serial use over a fixed library, the selection and the flags are coherent
after every step that leaves no load pending. -/
theorem coherent_of_serial {launch : Launch} {history : List (Transition App Event)}
    (run : launch.Run history s)
    (distinct : (launch.library.map PHAsset.localIdentifier).Nodup)
    (fixed : ∀ t ∈ history, KeepsLibrary t) (displayed : ∀ t ∈ history, TapsDisplayed t)
    (serial : ∀ t ∈ history, Serial t) (succeeds : ∀ t ∈ history, CommitSucceeds t) :
    ∀ t ∈ history, t.after.pendingLoads = [] → Coherent t.after := by
  let Allowed (t : Transition App Event) : Prop :=
    KeepsLibrary t ∧ TapsDisplayed t ∧ Serial t ∧ CommitSucceeds t
  have preserved : ∀ s e s', Allowed ⟨s, e, s'⟩ → Tidy launch.library s → s.step e = some s' →
      Tidy launch.library s' := by
    rintro s e s' ⟨keeps, displayed, serial, succeeds⟩ tidy taken
    exact tidy_step distinct tidy keeps displayed serial succeeds taken
  refine Run.forall_of_invariant (tidy_app launch) preserved ?_ run
    fun t member => ⟨fixed t member, displayed t member, serial t member, succeeds t member⟩
  intro s e s' allowed tidy taken settled
  exact (preserved s e s' allowed tidy taken).coherent settled

end Steps

/-- A placeholder is tapped and then the first photo, which gets a note; the
thumbnail for its cell fails once. -/
def placeholderThenNote : List Event :=
  [.didSelectItemAt ⟨4⟩ .delivered ⟨.delivered, .delivered⟩,
    .permissionResponse true ⟨320, 240⟩ .delivered, .cellForItemAt ⟨0⟩ .nil,
    .didSelectItemAt ⟨0⟩ .delivered ⟨.delivered, .delivered⟩,
    .largeImageLoaded 0 .nil ⟨.delivered, .delivered⟩, .typeTitle "Sunset",
    .textFieldDidEndEditing .succeeds]

theorem coherent_of_serial_placeholderThenNote :
    ∃ history s, App.Plays
        (Launch.app { Launch.threePhotos with isPhotoLibraryAccessAllowed := false })
        placeholderThenNote history s ∧
      ∀ t ∈ history, t.after.pendingLoads = [] → Coherent t.after := by
  have plays : App.Plays
      (Launch.app { Launch.threePhotos with isPhotoLibraryAccessAllowed := false })
      placeholderThenNote _ _ := rfl
  exact ⟨_, _, plays, @coherent_of_serial _ DateFormatter.plain _ _ plays.run (by decide)
    (by decide) (by decide) (by decide) (by decide)⟩

end App

end Phonotes
