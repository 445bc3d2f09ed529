import Phonotes.FixedLibrary

/-!
What the controller asks of the collection view.

`reloadItems(at:)` is safe when the item count is the one that was loaded last
and the row exists. The count moves with every library change and is loaded
again only by `reloadData`; the rows come from a selection that starts at a
fixed row, before the size of the library is known.
-/

namespace Phonotes

open TransitionSystem NoteTakingViewModel

namespace App

variable {s s' : App} {e : Event}

/-! ### Reloaded rows -/

/-- The row that a save reloads when its success is reported. -/
def savedRow (s : App) (e : Event) : List IndexPath :=
  if (s.writesNote e).isSome ∧ s.viewModel.SelectedCellCached then
    [s.viewModel.selectedIndexPath]
  else []

/-- The rows that an event reloads. -/
def reloadedRows (s : App) (e : Event) : List IndexPath :=
  match e with
  | .didSelectItemAt indexPath _ _ =>
      if s.view.getAccessButtonIsHidden ∧ s.viewModel.assetAt indexPath.item = none then
        [s.viewModel.selectedIndexPath, indexPath]
      else []
  | .largeImageLoaded i _ _ =>
      match s.pendingLoads[i]? with
      | none => []
      | some load =>
          match load.completion with
          | .viewWillAppear => []
          | .didSelectItemAt => [s.viewModel.selectedIndexPath, load.indexPath]
  | .textFieldDidEndEditing _ => s.savedRow e
  | .textViewDidEndEditing _ => s.savedRow e
  | _ => []

theorem reloadItems_mem_saveReports_iff {commit : CommitOutcome}
    (ended : e.endsEditing = some commit) {indexPath : IndexPath} {items loaded : Nat} :
    .reloadItems indexPath items loaded ∈ s.saveReports commit ↔
      indexPath ∈ s.savedRow e ∧ items = s.viewModel.numberOfItems ∧
        loaded = s.view.loadedItemCount := by
  unfold saveReports savedRow
  cases selected : s.viewModel.currentSelectedPhoto with
  | none => simp [writesNote_of_no_photo selected]
  | some photo =>
      cases held : s.noteManager.realm with
      | none => simp [writesNote, held]
      | some realm =>
          by_cases idle : realm.Idle
          · rw [writesNote_of_idle ended selected held idle]
            by_cases cached : s.viewModel.SelectedCellCached
            · simp [idle, cached]
            · simp [idle, cached]
          · simp [writesNote, held, idle]

/-- The calls of `reloadItems` that an event makes are the reloads of its rows,
with the counts before it. -/
theorem reloadItems_mem_callsOn_iff {indexPath : IndexPath} {items loaded : Nat} :
    .reloadItems indexPath items loaded ∈ s.callsOn e ↔
      indexPath ∈ s.reloadedRows e ∧ items = s.viewModel.numberOfItems ∧
        loaded = s.view.loadedItemCount := by
  cases e with
  | permissionResponse status bounds thumbnail =>
      cases status <;> simp [callsOn, reloadedRows]
  | didSelectItemAt tapped thumbnail cells =>
      simp only [callsOn, reloadedRows]
      split_ifs with immediate
      · simp only [selectionReloads, List.mem_cons, reduceCtorEq, false_or,
          UICall.reloadItems.injEq, List.not_mem_nil, or_false]
        tauto
      · simp
  | largeImageLoaded i reply cells =>
      cases pending : s.pendingLoads[i]? with
      | none => simp [callsOn, reloadedRows, pending]
      | some load =>
          cases completion : load.completion with
          | viewWillAppear => simp [callsOn, reloadedRows, pending, completion]
          | didSelectItemAt =>
              simp only [callsOn, reloadedRows, pending, completion, selectionReloads,
                List.mem_cons, reduceCtorEq, false_or, UICall.reloadItems.injEq,
                List.not_mem_nil, or_false]
              tauto
  | textFieldDidEndEditing commit => exact reloadItems_mem_saveReports_iff rfl
  | textViewDidEndEditing commit => exact reloadItems_mem_saveReports_iff rfl
  | _ => simp [callsOn, reloadedRows]

/-! ### The item count -/

/-- The item count is loaded again by the authorised permission response alone. -/
theorem loadedItemCount_of_stepped [DateFormatter] (stepped : Stepped s e s') :
    s'.view.loadedItemCount =
      match e with
      | .permissionResponse true _ _ => s'.viewModel.numberOfItems
      | _ => s.view.loadedItemCount := by
  cases stepped with
  | tapUnselectable _ _ => simp [NoteTakingView.reloadItems,
      NoteTakingView.populateViewWithSelectedPhotoInfo]
  | largeImageLoaded _ => rw [largeImageLoaded_view_eq]; rfl
  | endedEditing ended saved =>
      rw [saved.view_texts.2.2]
      cases e <;> first | rfl | cases ended
  | beganEditing => simp only [textViewShouldBeginEditing_eq]
  | willEndEditing => simp only [textViewShouldEndEditing_eq]
  | _ => rfl

/-- Rows are reloaded with the item count that was loaded last. -/
def ReloadsLoadedCount (t : Transition App Event) : Prop :=
  ∀ indexPath items loaded, .reloadItems indexPath items loaded ∈ callsIn t → items = loaded

/-- History: by how much the library has grown since the item count was last
loaded. Changes before there is a photo manager are not seen. -/
def drift : Observer App Event Int where
  initial := 0
  observe drift t :=
    match t.event, t.before.viewModel.photoManager with
    | .permissionResponse true _ _, _ => 0
    | .photoLibraryDidChange (some fetchResult), some manager =>
        drift + (fetchResult.length - manager.fetchResult.length)
    | _, _ => drift

/-- Rows are reloaded only when the library is back at the size it had when the
item count was loaded. -/
def ReloadsUndrifted (drift : Int) (t : Transition App Event) : Prop :=
  t.before.reloadedRows t.event ≠ [] → drift = 0

section Counts

variable [DateFormatter]

/-- The drift is what separates the two counts. -/
theorem drift_step {d : Int} (before : s.view.loadedItemCount + d = s.viewModel.numberOfItems)
    (taken : s.step e = some s') :
    s'.view.loadedItemCount + drift.observe d ⟨s, e, s'⟩ = s'.viewModel.numberOfItems := by
  obtain ⟨-, stepped⟩ := stepped_of_step taken
  have manager := photoManager_of_stepped stepped
  rw [loadedItemCount_of_stepped stepped]
  cases e with
  | permissionResponse status bounds thumbnail =>
      cases status with
      | true => exact Int.add_zero _
      | false =>
          simp only [NoteTakingViewModel.numberOfItems, manager, nextPhotoManager]
          exact before
  | photoLibraryDidChange changeDetails =>
      cases held : s.viewModel.photoManager with
      | none =>
          simp only [NoteTakingViewModel.numberOfItems, manager, nextPhotoManager, held,
            Option.map_none, drift] at before ⊢
          cases changeDetails <;> exact before
      | some photoManager =>
          simp only [NoteTakingViewModel.numberOfItems, manager, nextPhotoManager, held,
            Option.map_some, drift] at before ⊢
          cases changeDetails with
          | none => exact before
          | some fetchResult =>
              simp only [PhotoManager.photoLibraryDidChange]
              omega
  | _ =>
      simp only [NoteTakingViewModel.numberOfItems, manager, nextPhotoManager]
      exact before

/-- Along a run rows are reloaded with the count that was loaded last exactly
when no reload comes while the library has changed its size since. -/
theorem reloadsLoadedCount_iff {launch : Launch} {history : List (Transition App Event)}
    (run : launch.Run history s) :
    (∀ t ∈ history, ReloadsLoadedCount t) ↔ drift.Along ReloadsUndrifted history := by
  rw [← Observer.along_const_iff drift]
  let Drifts (d : Int) (s : App) : Prop := s.view.loadedItemCount + d = s.viewModel.numberOfItems
  have initial : Drifts drift.initial launch.app := Int.add_zero _
  refine Run.along_congr (I := Drifts) initial
    (fun d s e s' _ before taken => drift_step before taken) ?_ run (Observer.along_true _ history)
  intro d s e s' _ before taken
  obtain ⟨-, stepped⟩ := stepped_of_step taken
  unfold ReloadsLoadedCount ReloadsUndrifted
  simp only [callsIn_of_stepped stepped, reloadItems_mem_callsOn_iff]
  constructor
  · intro reloads rows
    obtain ⟨row, member⟩ := List.exists_mem_of_ne_nil _ rows
    have same := reloads row _ _ ⟨member, rfl, rfl⟩
    simp only [Drifts, same] at before
    omega
  · rintro undrifted row items loaded ⟨member, rfl, rfl⟩
    have zero := undrifted (List.ne_nil_of_mem member)
    simp only [Drifts, zero] at before
    omega

end Counts

/-- The first row is tapped and its load delivered. -/
def firstTapped : List Event :=
  startup ++ [.didSelectItemAt ⟨0⟩ .delivered ⟨.delivered, .delivered⟩,
    .largeImageLoaded 0 .delivered ⟨.delivered, .delivered⟩]

theorem reloadsLoadedCount_iff_firstTapped :
    ∃ history s, Launch.threePhotos.app.Plays firstTapped history s ∧
      ((∀ t ∈ history, ReloadsLoadedCount t) ↔ drift.Along ReloadsUndrifted history) := by
  have plays : Launch.threePhotos.app.Plays firstTapped _ _ := rfl
  exact ⟨_, _, plays, @reloadsLoadedCount_iff _ DateFormatter.plain _ _ plays.run⟩

/-- The first row is tapped, and a photo taken before its load is delivered. -/
def photoTakenWhileLoading : List Event :=
  startup ++ [.didSelectItemAt ⟨0⟩ .delivered ⟨.delivered, .delivered⟩,
    .photoLibraryDidChange (some [⟨"d", none⟩, ⟨"a", none⟩, ⟨"b", none⟩, ⟨"c", none⟩]),
    .largeImageLoaded 0 .delivered ⟨.delivered, .delivered⟩]

/-- The rows are then reloaded with four items where three were loaded. -/
theorem exists_reload_of_changed_count :
    ∃ history s, Launch.threePhotos.app.Plays photoTakenWhileLoading history s ∧
      ¬ ∀ t ∈ history, ReloadsLoadedCount t := by
  refine ⟨_, _, rfl, ?_⟩
  intro all
  have same := all _ (List.mem_of_mem_getLast? rfl) ⟨2⟩ 4 3 (by decide)
  exact absurd same (by decide)

/-! ### The initial row -/

/-- Every row is reloaded while it exists. -/
def ReloadsExistingRows (t : Transition App Event) : Prop :=
  ∀ indexPath items loaded, .reloadItems indexPath items loaded ∈ callsIn t →
    indexPath.item < items

/-- The load of a tap is delivered. -/
def DeliversTap (t : Transition App Event) : Prop :=
  match t.event with
  | .largeImageLoaded i _ _ =>
      ∃ load, t.before.pendingLoads[i]? = some load ∧ load.completion = .didSelectItemAt
  | _ => False

/-- History: the row selected until the load of a tap is first delivered, which
is the third or the placeholder tapped last. -/
def initialRow : Observer App Event (Option IndexPath) where
  initial := some ⟨2⟩
  observe row t :=
    match t.event with
    | .didSelectItemAt indexPath _ _ =>
        if t.before.viewModel.photoManager = none ∧ t.before.view.getAccessButtonIsHidden then
          some indexPath
        else row
    | .largeImageLoaded i _ _ =>
        match t.before.pendingLoads[i]? with
        | some load => if load.completion = .didSelectItemAt then none else row
        | none => row
    | _ => row

/-- When the load of a tap is first delivered, the library of `count` photos has
the initial row. -/
def StartsWithin (count : Nat) (row : Option IndexPath) (t : Transition App Event) : Prop :=
  DeliversTap t → ∀ first ∈ row, first.item < count

/-- The selected row over a fixed library: before there is a photo manager it is
one of the placeholders, then it is still the initial row or one of the
library's. -/
structure SelectsWithin (library : List PHAsset) (row : Option IndexPath) (s : App) : Prop where
  fixed : Fixed library s
  placeholder : s.viewModel.photoManager = none → s.viewModel.selectedIndexPath.item < 5
  start : ∀ first ∈ row, s.viewModel.selectedIndexPath = first
  moved : row = none → s.viewModel.selectedIndexPath.item < library.length

theorem selectsWithin_app (launch : Launch) :
    SelectsWithin launch.library initialRow.initial launch.app where
  fixed := fixed_app launch
  placeholder _ := by
    show 2 < 5
    omega
  start first isFirst := Option.some.inj isFirst
  moved none := by cases none

section Rows

variable [DateFormatter] {library : List PHAsset} {row : Option IndexPath}

theorem photoManager_none_of_stepped (stepped : Stepped s e s')
    (noManager : s'.viewModel.photoManager = none) : s.viewModel.photoManager = none := by
  rw [photoManager_of_stepped stepped] at noManager
  by_contra managed
  have isSome : (s.nextPhotoManager e).isSome :=
    nextPhotoManager_isSome (Option.isSome_iff_ne_none.mpr managed)
  simp [noManager] at isSome

omit [DateFormatter] in
theorem Fixed.lt_of_load (fixed : Fixed library s) {load : PendingLoad}
    (pending : load ∈ s.pendingLoads) : load.indexPath.item < library.length :=
  (List.getElem?_eq_some_iff.mp (fixed.getElem?_of_assetAt (fixed.loads load pending))).1

omit [DateFormatter] in
theorem Fixed.numberOfItems (fixed : Fixed library s) (managed : s.viewModel.photoManager.isSome) :
    s.viewModel.numberOfItems = library.length := by
  obtain ⟨manager, held⟩ := Option.isSome_iff_exists.mp managed
  simp only [NoteTakingViewModel.numberOfItems, held, fixed.manager manager held]

/-- How the selected row and the history move together: neither does, or a
placeholder is selected, or the row of a tap's load. -/
theorem selection_cases (displayed : TapsDisplayed ⟨s, e, s'⟩) (stepped : Stepped s e s') :
    (s'.viewModel.selectedIndexPath = s.viewModel.selectedIndexPath ∧
        initialRow.observe row ⟨s, e, s'⟩ = row) ∨
      (s'.viewModel.selectedIndexPath.item < 5 ∧
        initialRow.observe row ⟨s, e, s'⟩ = some s'.viewModel.selectedIndexPath) ∨
      ∃ load ∈ s.pendingLoads, s'.viewModel.selectedIndexPath = load.indexPath ∧
        initialRow.observe row ⟨s, e, s'⟩ = none := by
  have selected := selectedIndexPath_of_stepped stepped
  cases e with
  | didSelectItemAt indexPath thumbnail cells =>
      have isDisplayed : indexPath.item < s.viewModel.numberOfItems := displayed indexPath rfl
      cases held : s.viewModel.photoManager with
      | none =>
          have missing : s.viewModel.assetAt indexPath.item = none := by
            simp [NoteTakingViewModel.assetAt, held]
          cases hidden : s.view.getAccessButtonIsHidden with
          | true =>
              right
              left
              have moves : s'.viewModel.selectedIndexPath = indexPath := by
                simpa [movesSelection, hidden, missing] using selected
              rw [moves]
              constructor
              · simpa [NoteTakingViewModel.numberOfItems, held] using isDisplayed
              · simp [initialRow, held, hidden]
          | false =>
              left
              constructor
              · simpa [movesSelection, hidden] using selected
              · simp [initialRow, hidden]
      | some manager =>
          left
          obtain ⟨asset, found⟩ := assetAt_of_displayed held isDisplayed
          constructor
          · simpa [movesSelection, found] using selected
          · simp [initialRow, held]
  | largeImageLoaded i reply cells =>
      cases stepped with
      | endedEditing ended _ => cases ended
      | @largeImageLoaded _ load _ _ pending =>
          simp only [movesSelection, pending, Option.getD_some, loadedIndexPath] at selected
          cases completion : load.completion with
          | viewWillAppear =>
              left
              rw [completion] at selected
              exact ⟨selected, by simp [initialRow, pending, completion]⟩
          | didSelectItemAt =>
              right
              right
              rw [completion] at selected
              exact ⟨load, List.mem_of_getElem? pending, selected,
                by simp [initialRow, pending, completion]⟩
  | _ => exact Or.inl ⟨selected, rfl⟩

theorem selectsWithin_step (before : SelectsWithin library row s) (keeps : KeepsLibrary ⟨s, e, s'⟩)
    (displayed : TapsDisplayed ⟨s, e, s'⟩) (taken : s.step e = some s') :
    SelectsWithin library (initialRow.observe row ⟨s, e, s'⟩) s' := by
  obtain ⟨-, stepped⟩ := stepped_of_step taken
  have fixed := fixed_step before.fixed keeps taken
  have noManager := photoManager_none_of_stepped stepped
  rcases selection_cases displayed stepped with
    ⟨stays, observed⟩ | ⟨placeholder, observed⟩ | ⟨load, pending, selected, observed⟩
  · rw [observed]
    refine ⟨fixed, ?_, stays ▸ before.start, stays ▸ before.moved⟩
    intro none
    rw [stays]
    exact before.placeholder (noManager none)
  · rw [observed]
    refine ⟨fixed, ?_, ?_, ?_⟩
    · intro _
      exact placeholder
    · intro first isFirst
      exact Option.some.inj isFirst
    · intro none
      cases none
  · rw [observed]
    have managed := photoManager_isSome (before.fixed.loads load pending)
    refine ⟨fixed, ?_, ?_, ?_⟩
    · intro none
      simp [noManager none] at managed
    · intro first isFirst
      cases isFirst
    · intro _
      rw [selected]
      exact before.fixed.lt_of_load pending

omit [DateFormatter] in
/-- Whatever is reloaded without a load of a tap exists: two placeholders, or the
row of a cached cell. -/
theorem SelectsWithin.reloadedRow_lt (before : SelectsWithin library row s)
    (displayed : TapsDisplayed ⟨s, e, s'⟩) (undelivered : ¬ DeliversTap ⟨s, e, s'⟩)
    {indexPath : IndexPath} (reloaded : indexPath ∈ s.reloadedRows e) :
    indexPath.item < s.viewModel.numberOfItems := by
  have saved : indexPath ∈ s.savedRow e → indexPath.item < s.viewModel.numberOfItems := by
    intro member
    simp only [savedRow] at member
    split_ifs at member with writes
    · rw [List.mem_singleton] at member
      subst member
      obtain ⟨asset, found⟩ := before.fixed.cells _ writes.2
      exact lt_numberOfItems_of_assetAt found
    · cases member
  cases e with
  | didSelectItemAt tapped thumbnail cells =>
      have isDisplayed : tapped.item < s.viewModel.numberOfItems := displayed tapped rfl
      simp only [reloadedRows] at reloaded
      split_ifs at reloaded with immediate
      · cases held : s.viewModel.photoManager with
        | some manager =>
            obtain ⟨asset, found⟩ := assetAt_of_displayed held isDisplayed
            simp [found] at immediate
        | none =>
            have selected := before.placeholder held
            have placeholders : s.viewModel.numberOfItems = 5 := by
              simp [NoteTakingViewModel.numberOfItems, held]
            simp only [List.mem_cons, List.not_mem_nil, or_false] at reloaded
            rcases reloaded with rfl | rfl
            · omega
            · exact isDisplayed
      · cases reloaded
  | largeImageLoaded i reply cells =>
      cases pending : s.pendingLoads[i]? with
      | none => simp [reloadedRows, pending] at reloaded
      | some load =>
          cases completion : load.completion with
          | viewWillAppear => simp [reloadedRows, pending, completion] at reloaded
          | didSelectItemAt => exact absurd ⟨load, pending, completion⟩ undelivered
  | textFieldDidEndEditing commit => exact saved reloaded
  | textViewDidEndEditing commit => exact saved reloaded
  | _ => cases reloaded

theorem reloadsExistingRows_iff_of_stepped (before : SelectsWithin library row s)
    (displayed : TapsDisplayed ⟨s, e, s'⟩) (stepped : Stepped s e s') :
    ReloadsExistingRows ⟨s, e, s'⟩ ↔ StartsWithin library.length row ⟨s, e, s'⟩ := by
  have rows : ReloadsExistingRows ⟨s, e, s'⟩ ↔
      ∀ indexPath ∈ s.reloadedRows e, indexPath.item < s.viewModel.numberOfItems := by
    simp only [ReloadsExistingRows, callsIn_of_stepped stepped, reloadItems_mem_callsOn_iff]
    constructor
    · intro exist indexPath member
      exact exist indexPath _ _ ⟨member, rfl, rfl⟩
    · rintro exist indexPath items loaded ⟨member, rfl, -⟩
      exact exist indexPath member
  rw [rows]
  by_cases delivers : DeliversTap ⟨s, e, s'⟩
  · cases e with
    | largeImageLoaded i reply cells =>
        obtain ⟨load, pending, completion⟩ := delivers
        dsimp only at pending
        have member := List.mem_of_getElem? pending
        rw [before.fixed.numberOfItems (photoManager_isSome (before.fixed.loads load member))]
        simp only [reloadedRows, pending, completion, List.forall_mem_cons, List.not_mem_nil,
          false_implies, implies_true, and_true]
        constructor
        · rintro ⟨selected, -⟩ - first isFirst
          rwa [← before.start first isFirst]
        · intro starts
          refine ⟨?_, before.fixed.lt_of_load member⟩
          cases isRow : row with
          | none => exact before.moved isRow
          | some first =>
              rw [before.start first isRow]
              exact starts ⟨load, pending, completion⟩ first isRow
    | _ => cases delivers
  · exact iff_of_true (fun indexPath => before.reloadedRow_lt displayed delivers)
      fun delivered => absurd delivered delivers

/-- Along a run over a fixed library every row that is reloaded exists exactly
when the library has the initial row at the first delivery of a tap's load. -/
theorem reloadsExistingRows_iff {launch : Launch} {history : List (Transition App Event)}
    (run : launch.Run history s) (fixed : ∀ t ∈ history, KeepsLibrary t)
    (displayed : ∀ t ∈ history, TapsDisplayed t) :
    (∀ t ∈ history, ReloadsExistingRows t) ↔
      initialRow.Along (StartsWithin launch.library.length) history := by
  rw [← Observer.along_const_iff initialRow]
  have along : initialRow.Along (fun _ t => KeepsLibrary t ∧ TapsDisplayed t) history :=
    (Observer.along_const_iff initialRow).mpr fun t member =>
      ⟨fixed t member, displayed t member⟩
  refine Run.along_congr (I := SelectsWithin launch.library) (selectsWithin_app launch)
    (fun row s e s' allowed before taken => selectsWithin_step before allowed.1 allowed.2 taken) ?_
    run along
  intro row s e s' allowed before taken
  exact reloadsExistingRows_iff_of_stepped before allowed.2 (stepped_of_step taken).2

end Rows

theorem reloadsExistingRows_iff_firstTapped :
    ∃ history s, Launch.threePhotos.app.Plays firstTapped history s ∧
      ((∀ t ∈ history, ReloadsExistingRows t) ↔
        initialRow.Along (StartsWithin Launch.threePhotos.library.length) history) := by
  have plays : Launch.threePhotos.app.Plays firstTapped _ _ := rfl
  exact ⟨_, _, plays, @reloadsExistingRows_iff _ DateFormatter.plain _ _ plays.run
    (by decide) (by decide)⟩

/-- Access was allowed before, and the only photo is tapped. -/
def onlyPhotoTapped : List Event :=
  [.permissionResponse true ⟨320, 240⟩ .delivered,
    .didSelectItemAt ⟨0⟩ .delivered ⟨.delivered, .delivered⟩,
    .largeImageLoaded 0 .delivered ⟨.delivered, .delivered⟩]

/-- The third row is then reloaded, of one. -/
theorem exists_reload_of_missing_row :
    ∃ history s, App.Plays
        (Launch.app { Launch.threePhotos with library := [⟨"a", none⟩] })
        onlyPhotoTapped history s ∧
      (∀ t ∈ history, KeepsLibrary t) ∧ (∀ t ∈ history, TapsDisplayed t) ∧
      ¬ ∀ t ∈ history, ReloadsExistingRows t := by
  refine ⟨_, _, rfl, by decide, by decide, ?_⟩
  intro all
  have exist := all _ (List.mem_of_mem_getLast? rfl) ⟨2⟩ 1 1 (by decide)
  exact absurd exist (by decide)

end App

end Phonotes
