import Mathlib.Data.List.Perm.Basic
import Phonotes.SerialUse
import Phonotes.Sessions

/-!
What the app asks of the phone, and what it makes of the answers.

The large images are requested one by one and answered in any order, and every
selection shows once. Access to the library is asked for when the screen appears:
without it the app has nothing to select or to save, and a refusal leaves the collection
view dead for as long as the app lives.
-/

namespace Phonotes

open TransitionSystem NoteTakingViewModel

namespace App

variable {s s' : App} {e : Event}

/-! ### Loads -/

/-- The load whose handler runs in a transition. -/
def answered (t : Transition App Event) : List PendingLoad :=
  match t.event with
  | .largeImageLoaded i _ _ => (t.before.pendingLoads[i]?).toList
  | _ => []

theorem answered_append_keptLoads (s s' : App) (e : Event) :
    (answered ⟨s, e, s'⟩ ++ s.keptLoads e).Perm s.pendingLoads := by
  cases e with
  | largeImageLoaded i image cells =>
      simp only [answered, keptLoads]
      cases pending : s.pendingLoads[i]? with
      | none =>
          have past : s.pendingLoads.length ≤ i := List.getElem?_eq_none_iff.mp pending
          rw [List.eraseIdx_of_length_le past]
          exact List.Perm.refl _
      | some load =>
          obtain ⟨inRange, rfl⟩ := List.getElem?_eq_some_iff.mp pending
          exact List.getElem_cons_eraseIdx_perm inRange
  | _ => exact List.Perm.refl _

theorem keptLoads_sublist (s : App) (e : Event) : (s.keptLoads e).Sublist s.pendingLoads := by
  cases e with
  | largeImageLoaded i image cells => exact List.eraseIdx_sublist _ i
  | _ => exact List.Sublist.refl _

/-! ### Selections and the screen -/

/-- A selection that is reported as done at once: the row has no asset. -/
def completesAtOnce (s : App) : Event → Bool
  | .permissionResponse true bounds _ =>
      ((s.withPhotoManager bounds).viewModel.assetAt s.viewModel.selectedIndexPath.item).isNone
  | .didSelectItemAt indexPath _ _ =>
      s.view.getAccessButtonIsHidden && (s.viewModel.assetAt indexPath.item).isNone
  | _ => false

/-- The event selects a row: its photo is loaded from then on, or there is none. -/
def selectsRow (s : App) (e : Event) : Bool := s.completesAtOnce e || (s.startsLoad e).isSome

theorem count_populate_selectionReloads (s : App) (indexPath : IndexPath) :
    (s.selectionReloads indexPath).count .populate = 0 := by
  simp [selectionReloads]

theorem count_populate_callsOn : (s.callsOn e).count .populate = (s.populates e).toNat := by
  cases e with
  | permissionResponse status bounds thumbnail =>
      cases status with
      | false => rfl
      | true =>
          simp only [callsOn, populates]
          cases (s.withPhotoManager bounds).viewModel.assetAt
              s.viewModel.selectedIndexPath.item with
          | none => rfl
          | some asset => rfl
  | didSelectItemAt indexPath thumbnail cells =>
      simp only [callsOn, populates]
      cases hidden : s.view.getAccessButtonIsHidden with
      | false => simp
      | true =>
          cases s.viewModel.assetAt indexPath.item with
          | none => simp [count_populate_selectionReloads]
          | some asset => simp
  | largeImageLoaded i image cells =>
      simp only [callsOn, populates]
      cases s.pendingLoads[i]? with
      | none => rfl
      | some load =>
          cases completion : load.completion with
          | viewWillAppear => simp [completion]
          | didSelectItemAt => simp [completion, count_populate_selectionReloads]
  | textFieldDidEndEditing commit =>
      exact List.count_eq_zero.mpr (populate_notMem_saveReports s commit)
  | textViewDidEndEditing commit =>
      exact List.count_eq_zero.mpr (populate_notMem_saveReports s commit)
  | _ => rfl

/-- A load that starts is no selection that is done at once. -/
theorem completesAtOnce_of_startsLoad {load : PendingLoad} (starts : s.startsLoad e = some load) :
    s.completesAtOnce e = false := by
  cases e with
  | permissionResponse status bounds thumbnail =>
      cases status with
      | false => rfl
      | true =>
          cases found : (s.withPhotoManager bounds).viewModel.assetAt
              s.viewModel.selectedIndexPath.item with
          | none => cases thumbnail <;> simp [startsLoad, selects, found] at starts
          | some asset => simp [completesAtOnce, found]
  | didSelectItemAt indexPath thumbnail cells =>
      cases found : s.viewModel.assetAt indexPath.item with
      | none => cases thumbnail <;> simp [startsLoad, selects, found] at starts
      | some asset => simp [completesAtOnce, found]
  | _ => rfl

theorem toNat_selectsRow (s : App) (e : Event) :
    (s.selectsRow e).toNat = (s.completesAtOnce e).toNat + (s.startsLoad e).toList.length := by
  unfold selectsRow
  cases starts : s.startsLoad e with
  | none => simp
  | some load => simp [completesAtOnce_of_startsLoad starts]

theorem toNat_populates (s s' : App) (e : Event) :
    (s.populates e).toNat = (s.completesAtOnce e).toNat + (answered ⟨s, e, s'⟩).length := by
  cases e with
  | permissionResponse status bounds thumbnail => cases status <;> rfl
  | largeImageLoaded i image cells =>
      simp only [populates, completesAtOnce, answered]
      cases s.pendingLoads[i]? with
      | none => rfl
      | some load => rfl
  | _ => rfl

/-- A step adds as many populated screens and pending loads as rows are selected. -/
theorem populates_add_pending [DateFormatter] (stepped : Stepped s e s') :
    (s.callsOn e).count .populate + s'.pendingLoads.length =
      s.pendingLoads.length + (s.selectsRow e).toNat := by
  have kept := (answered_append_keptLoads s s' e).length_eq
  rw [List.length_append] at kept
  rw [count_populate_callsOn, toNat_populates s s', toNat_selectsRow,
    pendingLoads_of_stepped stepped, List.length_append]
  omega

/-- Every selection populates the screen once: at once where there is no photo to load,
else when its load is answered. -/
theorem populates_of_run [DateFormatter] {launch : Launch}
    {history : List (Transition App Event)} (run : launch.Run history s) :
    s.view.calls.count .populate + s.pendingLoads.length =
      history.countP fun t => t.before.selectsRow t.event := by
  induction run with
  | nil => rfl
  | @snoc history s s' e _ taken ih =>
      have stepped := (stepped_of_step taken).2
      have one := populates_add_pending stepped
      rw [calls_of_stepped stepped, List.count_append, List.countP_append,
        List.countP_singleton, ← ih]
      cases selected : s.selectsRow e with
      | false =>
          rw [selected, Bool.toNat_false] at one
          simp only [Bool.false_eq_true, if_false]
          omega
      | true =>
          rw [selected, Bool.toNat_true] at one
          simp only [if_true]
          omega

/-- Two rows are tapped while the first load is pending, and the later one is answered
first. -/
def answeredOutOfOrder : List Event :=
  [.permissionResponse true ⟨320, 240⟩ .delivered,
    .didSelectItemAt ⟨1⟩ .delivered ⟨.delivered, .delivered⟩,
    .largeImageLoaded 1 .delivered ⟨.delivered, .delivered⟩,
    .didSelectItemAt ⟨7⟩ .delivered ⟨.delivered, .delivered⟩]

theorem populates_of_run_answeredOutOfOrder :
    ∃ history s, Launch.threePhotos.app.Plays answeredOutOfOrder history s ∧
      s.view.calls.count .populate + s.pendingLoads.length =
        history.countP fun t => t.before.selectsRow t.event := by
  have plays : Launch.threePhotos.app.Plays answeredOutOfOrder _ _ := rfl
  exact ⟨_, _, plays, @populates_of_run _ DateFormatter.plain _ _ plays.run⟩

/-! ### A refusal -/

/-- The event answers that the library must not be read. -/
def denies : Event → Bool
  | .permissionResponse false _ _ => true
  | _ => false

/-- History: access has been refused. -/
def denied : Observer App Event Bool where
  initial := false
  observe denied t := denied || denies t.event

theorem Saved.getAccessButtonIsHidden {commit : CommitOutcome} (saved : Saved s commit s') :
    s'.view.getAccessButtonIsHidden = s.view.getAccessButtonIsHidden := by
  have reported : s.reportedView.getAccessButtonIsHidden = s.view.getAccessButtonIsHidden := by
    unfold reportedView
    split_ifs <;> rfl
  cases saved with
  | committed _ _ _ => exact reported
  | threw _ _ _ => exact reported
  | _ => rfl

/-- Nothing hides the button again. -/
theorem getAccessButtonIsHidden_of_stepped [DateFormatter] (stepped : Stepped s e s') :
    s'.view.getAccessButtonIsHidden = (s.view.getAccessButtonIsHidden && !denies e) := by
  cases stepped with
  | denied => simp [denies]
  | firstUnselectable _ =>
      rw [withPhotoManager_eq]
      exact (Bool.and_true _).symm
  | firstUnfetched _ =>
      rw [withPhotoManager_eq]
      exact (Bool.and_true _).symm
  | firstSelected _ _ =>
      rw [withPhotoManager_eq]
      exact (Bool.and_true _).symm
  | tapUnselectable _ _ =>
      rw [didSelectCompletion_view]
      exact (Bool.and_true _).symm
  | largeImageLoaded _ =>
      rw [largeImageLoaded_view_eq]
      exact (Bool.and_true _).symm
  | endedEditing ended saved =>
      rw [saved.getAccessButtonIsHidden]
      cases e with
      | permissionResponse status bounds thumbnail => cases ended
      | _ => exact (Bool.and_true _).symm
  | beganEditing =>
      rw [textViewShouldBeginEditing_eq]
      exact (Bool.and_true _).symm
  | willEndEditing =>
      rw [textViewShouldEndEditing_eq]
      exact (Bool.and_true _).symm
  | _ => exact (Bool.and_true _).symm

/-- A tap does nothing if the button is shown, or if the row has an asset but no thumbnail
of it comes. -/
theorem tap_ignored_iff [DateFormatter] {indexPath : IndexPath} {thumbnail : ImageReply}
    {cells : CellReplies} (stepped : Stepped s (.didSelectItemAt indexPath thumbnail cells) s') :
    s' = s ↔ s.view.getAccessButtonIsHidden = false ∨
      thumbnail = .nil ∧ (s.viewModel.assetAt indexPath.item).isSome := by
  cases stepped with
  | tapIgnored shown => exact iff_of_true rfl (Or.inl shown)
  | tapUnselectable hidden missing =>
      refine iff_of_false ?_ (by simp [hidden, missing])
      intro same
      have calls := congrArg (fun app => app.view.calls.length) same
      simp [NoteTakingView.reloadItems, NoteTakingView.populateViewWithSelectedPhotoInfo] at calls
  | tapUnfetched hidden found => exact iff_of_true rfl (Or.inr ⟨rfl, by simp [found]⟩)
  | tapSelected hidden _ found =>
      refine iff_of_false ?_ (by simp [hidden])
      intro same
      have loads := congrArg (fun app => app.pendingLoads.length) same
      simp [startLoad] at loads
  | endedEditing ended _ => cases ended

/-- Once access was refused every tap is ignored, whatever is answered later; before, only
those are for which no thumbnail comes. -/
def TapHeeded (denied : Bool) (t : Transition App Event) : Prop :=
  ∀ indexPath thumbnail cells, t.event = .didSelectItemAt indexPath thumbnail cells →
    (t.after = t.before ↔ denied = true ∨
      thumbnail = .nil ∧ (t.before.viewModel.assetAt indexPath.item).isSome)

theorem tapHeeded_of_run [DateFormatter] {launch : Launch}
    {history : List (Transition App Event)} (run : launch.Run history s) :
    denied.Along TapHeeded history := by
  refine Run.along_of_invariant (C := fun _ _ => True)
    (I := fun denied s => s.view.getAccessButtonIsHidden = !denied) rfl ?_ ?_ run
    (Observer.along_true denied history)
  · intro denied s e s' _ shown taken
    rw [getAccessButtonIsHidden_of_stepped (stepped_of_step taken).2, shown]
    exact (Bool.not_or denied (denies e)).symm
  · rintro denied s e s' - shown taken indexPath thumbnail cells rfl
    have ignored := tap_ignored_iff (stepped_of_step taken).2
    rw [shown, Bool.not_eq_false'] at ignored
    exact ignored

/-- A row is tapped, access refused and then granted, and another row tapped. -/
def tapAfterRefusal : List Event :=
  [.permissionResponse true ⟨320, 240⟩ .delivered,
    .didSelectItemAt ⟨1⟩ .delivered ⟨.delivered, .delivered⟩,
    .permissionResponse false ⟨320, 240⟩ .nil,
    .permissionResponse true ⟨320, 240⟩ .delivered,
    .didSelectItemAt ⟨2⟩ .delivered ⟨.delivered, .delivered⟩]

theorem tapHeeded_of_run_tapAfterRefusal :
    ∃ history s, Launch.threePhotos.app.Plays tapAfterRefusal history s ∧
      denied.Along TapHeeded history := by
  have plays : Launch.threePhotos.app.Plays tapAfterRefusal _ _ := rfl
  exact ⟨_, _, plays, @tapHeeded_of_run _ DateFormatter.plain _ _ plays.run⟩

/-! ### No access -/

/-- The event answers that the library may be read. -/
def grants : Event → Bool
  | .permissionResponse true _ _ => true
  | _ => false

/-- An app that was never let into the library, after so many ends of editing. -/
structure Unpermitted (start : NoteManager) (edits : Nat) (s : App) : Prop where
  photoManager : s.viewModel.photoManager = none
  currentPhotoId : s.currentPhotoId = none
  pendingLoads : s.pendingLoads = []
  cells : ∀ row, s.viewModel.cellViewModels row = none
  noteManager : s.noteManager = start
  raised : s.raised = none
  alerts : s.view.calls.count (.alert "Note not saved" "Cannot find selected photo") = edits

theorem selects_of_no_manager (closed : s.viewModel.photoManager = none)
    (ungranted : grants e = false) : s.selects e = none := by
  cases e with
  | permissionResponse status bounds thumbnail =>
      cases status with
      | false => rfl
      | true => cases ungranted
  | didSelectItemAt indexPath thumbnail cells =>
      cases thumbnail <;> simp [selects, NoteTakingViewModel.assetAt, closed]
  | _ => rfl

theorem nextPhotoManager_of_no_manager (closed : s.viewModel.photoManager = none)
    (ungranted : grants e = false) : s.nextPhotoManager e = none := by
  cases e with
  | permissionResponse status bounds thumbnail =>
      cases status with
      | false => exact closed
      | true => cases ungranted
  | photoLibraryDidChange changeDetails => simp [nextPhotoManager, closed]
  | _ => exact closed

/-- Without a photo the alert is what an end of editing leads to, and nothing else does. -/
theorem count_alert_callsOn (unselected : s.viewModel.currentSelectedPhoto = none) :
    (s.callsOn e).count (.alert "Note not saved" "Cannot find selected photo") =
      e.endsEditing.isSome.toNat := by
  cases e with
  | permissionResponse status bounds thumbnail =>
      cases status with
      | false => rfl
      | true =>
          simp only [callsOn]
          cases (s.withPhotoManager bounds).viewModel.assetAt
              s.viewModel.selectedIndexPath.item with
          | none => rfl
          | some asset => rfl
  | didSelectItemAt indexPath thumbnail cells =>
      simp only [callsOn]
      split_ifs <;> rfl
  | largeImageLoaded i image cells =>
      simp only [callsOn]
      cases s.pendingLoads[i]? with
      | none => rfl
      | some load => cases completion : load.completion <;> simp [completion] <;> rfl
  | textFieldDidEndEditing commit => simp [callsOn, saveReports, unselected, Event.endsEditing]
  | textViewDidEndEditing commit => simp [callsOn, saveReports, unselected, Event.endsEditing]
  | _ => rfl

theorem unpermitted_step [DateFormatter] {start : NoteManager} {edits : Nat}
    (unpermitted : Unpermitted start edits s) (ungranted : grants e = false)
    (stepped : Stepped s e s') :
    Unpermitted start (edits + e.endsEditing.isSome.toNat) s' := by
  have unselected : s.viewModel.currentSelectedPhoto = none :=
    Option.map_eq_none_iff.mp unpermitted.currentPhotoId
  have selects := selects_of_no_manager unpermitted.photoManager ungranted
  have closed := nextPhotoManager_of_no_manager unpermitted.photoManager ungranted
  refine ⟨?_, ?_, ?_, ?_, ?_, ?_, ?_⟩
  · rw [photoManager_of_stepped stepped, closed]
  · rw [currentPhotoId_of_stepped stepped, selects, unpermitted.currentPhotoId]
    rfl
  · have kept := keptLoads_sublist s e
    rw [unpermitted.pendingLoads, List.sublist_nil] at kept
    rw [pendingLoads_of_stepped stepped, kept, startsLoad_of_selects_none selects]
    rfl
  · intro row
    cases held : s'.viewModel.cellViewModels row with
    | none => rfl
    | some cell =>
        rcases cells_of_stepped stepped held with ⟨old, cached, -⟩ | ⟨asset, found, -⟩
        · cases (unpermitted.cells row).symm.trans cached
        · rw [assetAt_of_stepped stepped, nextAssetAt, closed] at found
          cases found
  · cases ended : e.endsEditing with
    | none => rw [noteManager_of_stepped ended stepped, unpermitted.noteManager]
    | some commit =>
        cases stepped with
        | endedEditing _ saved =>
            cases saved with
            | noPhoto _ => exact unpermitted.noteManager
            | noRealm selected _ => cases unselected.symm.trans selected
            | raised selected _ _ => cases unselected.symm.trans selected
            | committed selected _ _ => cases unselected.symm.trans selected
            | threw selected _ _ => cases unselected.symm.trans selected
        | _ => cases ended
  · have raises := raised_of_stepped unpermitted.raised stepped
    have silent : s.savesNote e = none := by
      unfold savesNote
      cases e.endsEditing with
      | none => rfl
      | some commit => rw [unpermitted.currentPhotoId, Option.map_none]
    rw [silent] at raises
    simpa using raises
  · rw [calls_of_stepped stepped, List.count_append, unpermitted.alerts,
      count_alert_callsOn unselected]

/-- As long as access has not been granted, whatever else happens: there is no photo, no
request and no cell, no note is saved, nothing is raised, and each end of editing leads to
one alert. -/
theorem unpermitted_of_run [DateFormatter] {launch : Launch}
    {history : List (Transition App Event)} (run : launch.Run history s)
    (unpermitted : launch.isPhotoLibraryAccessAllowed = false)
    (ungranted : ∀ t ∈ history, grants t.event = false) :
    Unpermitted launch.app.noteManager
      (history.countP fun t => t.event.endsEditing.isSome) s := by
  induction run with
  | nil =>
      have closed : launch.app.viewModel.photoManager = none := by
        simp [Launch.app, App.viewDidLoad, NoteTakingViewModel.init, unpermitted]
      exact ⟨closed, rfl, rfl, fun _ => rfl, rfl, rfl, rfl⟩
  | @snoc history s s' e _ taken ih =>
      have before := ih fun t member => ungranted t (List.mem_append_left _ member)
      have after := unpermitted_step before (ungranted ⟨s, e, s'⟩ (by simp))
        (stepped_of_step taken).2
      rw [List.countP_append, List.countP_singleton]
      cases ended : e.endsEditing with
      | none => simpa [ended] using after
      | some commit => simpa [ended] using after

/-- The library is closed to the app; a cell is drawn and tapped, and a note typed. -/
def noteWithoutAccess : List Event :=
  [.permissionResponse false ⟨320, 240⟩ .nil, .cellForItemAt ⟨0⟩ .delivered,
    .didSelectItemAt ⟨0⟩ .delivered ⟨.delivered, .delivered⟩, .typeTitle "Sunset",
    .textFieldDidEndEditing .succeeds]

theorem unpermitted_of_run_noteWithoutAccess :
    let launch : Launch := { Launch.threePhotos with isPhotoLibraryAccessAllowed := false }
    ∃ history s, launch.app.Plays noteWithoutAccess history s ∧
      Unpermitted launch.app.noteManager
        (history.countP fun t => t.event.endsEditing.isSome) s := by
  intro launch
  have plays : launch.app.Plays noteWithoutAccess _ _ := rfl
  exact ⟨_, _, plays, @unpermitted_of_run _ DateFormatter.plain _ _ plays.run rfl (by decide)⟩

end App

end Phonotes
