import Phonotes.Library.Simulation
import Phonotes.Runs

/-!
Cells are drawn from the app and never the other way round.

The collection view asks for cells whenever it likes, and a thumbnail arrives for
them or not. `withoutCells` is the app without what such requests leave behind
(the cached cells, and the calls made on UIKit), and no step lets it through:
runs that differ only in their cell traffic agree on the rest, as long as UIKit does not
end one of them.
-/

namespace Phonotes

open TransitionSystem

/-- What is left of an event without its cell traffic: nothing of a request for a
cell, and of a selection its own replies only. -/
def Event.withoutCells : Event → List Event
  | .cellForItemAt _ _ => []
  | .didSelectItemAt indexPath thumbnail _ =>
      [.didSelectItemAt indexPath thumbnail ⟨.nil, .nil⟩]
  | .largeImageLoaded i image _ => [.largeImageLoaded i image ⟨.nil, .nil⟩]
  | e => [e]

/-- UIKit takes the call: a reload is of a row that exists, with the item count that was
loaded last. It raises at another one, inside `Realm.write` if the reload is that of a
save. -/
def UICall.isTaken : UICall → Bool
  | .reloadItems indexPath items loaded => items = loaded && indexPath.item < items
  | _ => true

namespace App

open NoteTakingViewModel

/-- The app without its cached cells and without the record of its calls. -/
def withoutCells (s : App) : App :=
  { s with
    viewModel := { s.viewModel with cellViewModels := fun _ => none }
    view := { s.view with calls := [] } }

theorem raised_eq_of_withoutCells {s t : App} (same : s.withoutCells = t.withoutCells) :
    s.raised = t.raised := (App.mk.inj same).2.2.2.2.2

theorem pendingLoads_eq_of_withoutCells {s t : App} (same : s.withoutCells = t.withoutCells) :
    s.pendingLoads = t.pendingLoads := (App.mk.inj same).2.2.2.2.1

/-! ### The handlers -/

/-- A selection does not look at the cells. -/
theorem setCurrentSelectedPhoto_withCells (self : NoteTakingViewModel)
    (cells : Nat → Option NoteTakingPhotoCellViewModel) (noteManager : NoteManager)
    (indexPath : IndexPath) (reply : ImageReply) :
    NoteTakingViewModel.setCurrentSelectedPhoto { self with cellViewModels := cells } noteManager
        indexPath reply =
      match self.setCurrentSelectedPhoto noteManager indexPath reply with
      | .completed => .completed
      | .unfetched => .unfetched
      | .loading viewModel manager asset =>
          .loading { viewModel with cellViewModels := cells } manager asset := by
  simp only [setCurrentSelectedPhoto]
  cases self.photoManager with
  | none => rfl
  | some manager =>
      dsimp only
      split_ifs
      · cases manager.fetchPhoto noteManager indexPath (some self.thumbnailSize) reply <;> rfl
      · rfl

/-- A selection that the permission response goes on from. -/
theorem afterSelection_withoutCells (s : App) (cells : Nat → Option NoteTakingPhotoCellViewModel)
    (indexPath : IndexPath) (selection : Selection) :
    (s.afterSelection indexPath selection).withoutCells =
      (s.withoutCells.afterSelection indexPath
        (match selection with
          | .completed => .completed
          | .unfetched => .unfetched
          | .loading viewModel manager asset =>
              .loading { viewModel with cellViewModels := cells } manager asset)).withoutCells := by
  cases selection <;> rfl

theorem reloadData_withoutCells {s t : App} (same : s.withoutCells = t.withoutCells) :
    s.reloadData.withoutCells = t.reloadData.withoutCells := by
  have viewModel := (App.mk.inj same).2.2.1
  have manager := congrArg NoteTakingViewModel.photoManager viewModel
  have count : s.viewModel.numberOfItems = t.viewModel.numberOfItems := by
    simp only [NoteTakingViewModel.numberOfItems]
    rw [show s.viewModel.photoManager = t.viewModel.photoManager from manager]
  have reloaded := congrArg (fun u : App =>
    { u with view := { u.view with loadedItemCount := s.viewModel.numberOfItems } }) same
  unfold reloadData
  rw [← count]
  exact reloaded

theorem permissionResponse_withoutCells (s : App) (status : Bool) (bounds : CGSize)
    (thumbnail : ImageReply) :
    (s.permissionResponse status bounds thumbnail).withoutCells =
      (s.withoutCells.permissionResponse status bounds thumbnail).withoutCells := by
  cases status with
  | false => rfl
  | true =>
      have manager : (s.withoutCells.withPhotoManager bounds) =
          (s.withPhotoManager bounds).withoutCells := by
        simp only [withPhotoManager_eq]
        rfl
      have unfolded (u : App) : u.permissionResponse true bounds thumbnail =
          ((u.withPhotoManager bounds).afterSelection
            (u.withPhotoManager bounds).viewModel.selectedIndexPath
            ((u.withPhotoManager bounds).viewModel.setCurrentSelectedPhoto u.noteManager
              (u.withPhotoManager bounds).viewModel.selectedIndexPath thumbnail)).reloadData := rfl
      rw [unfolded, unfolded, manager]
      apply reloadData_withoutCells
      rw [afterSelection_withoutCells _ fun _ => none]
      refine congrArg (fun selection => App.withoutCells (App.afterSelection _ _ selection)) ?_
      exact (setCurrentSelectedPhoto_withCells ..).symm

/-- The completion of a tap moves the selection and repopulates the screen, whatever
becomes of the cells. -/
theorem didSelectCompletion_withoutCells (s : App) (indexPath : IndexPath)
    (cells : CellReplies) :
    (s.didSelectCompletion indexPath cells).withoutCells =
      { s.withoutCells with
        viewModel := s.withoutCells.viewModel.updateSelectedIndexPath indexPath
        view := { s.view.populateViewWithSelectedPhotoInfo s.viewModel with calls := [] } } := by
  rw [didSelectCompletion_frame, withoutCells, (didSelectCompletion_redrawn s indexPath cells).frame]
  rfl

theorem didSelectItemAt_withoutCells (s : App) (indexPath : IndexPath) (thumbnail : ImageReply)
    (cells cells' : CellReplies) :
    (s.didSelectItemAt indexPath thumbnail cells).withoutCells =
      (s.withoutCells.didSelectItemAt indexPath thumbnail cells').withoutCells := by
  unfold didSelectItemAt
  cases hidden : s.view.getAccessButtonIsHidden with
  | false => simp [withoutCells, hidden]
  | true =>
      have still : s.withoutCells.view.getAccessButtonIsHidden = true := hidden
      have selection := setCurrentSelectedPhoto_withCells s.viewModel (fun _ => none)
        s.noteManager indexPath thumbnail
      simp only [still, if_true]
      rw [show s.withoutCells.viewModel.setCurrentSelectedPhoto s.withoutCells.noteManager
        indexPath thumbnail = _ from selection]
      cases s.viewModel.setCurrentSelectedPhoto s.noteManager indexPath thumbnail with
      | completed => simp only [didSelectCompletion_withoutCells]; rfl
      | unfetched => rfl
      | loading viewModel manager asset => rfl

section Handlers

variable [DateFormatter]

theorem largeImageLoaded_withoutCells (s : App) (load : PendingLoad) (image : ImageReply)
    (cells cells' : CellReplies) :
    (s.largeImageLoaded load image cells).withoutCells =
      (s.withoutCells.largeImageLoaded load image cells').withoutCells := by
  rw [largeImageLoaded_eq_completion, largeImageLoaded_eq_completion]
  cases load.completion with
  | viewWillAppear => simp only [loadedViewModel, largeImageLoaded_eq]; rfl
  | didSelectItemAt =>
      simp only [didSelectCompletion_withoutCells, loadedViewModel, largeImageLoaded_eq]
      rfl

end Handlers

theorem reportedView_withoutCalls (s : App) :
    { s.reportedView with calls := [] } = { s.view with calls := [] } := by
  unfold reportedView
  split_ifs <;> rfl

/-- The same texts are saved for the same photo into the same table; only whether
the save is reported looks at the cells. -/
theorem Saved.withoutCells_eq {s s' t : App} {commit : CommitOutcome}
    (first : Saved s commit s') (second : Saved s.withoutCells commit t) :
    s'.withoutCells = t.withoutCells := by
  cases first with
  | noPhoto unselected =>
      cases second with
      | noPhoto _ => rfl
      | noRealm selected | raised selected | committed selected | threw selected =>
          cases unselected.symm.trans selected
  | noRealm selected closed =>
      cases second with
      | noPhoto unselected => cases selected.symm.trans unselected
      | noRealm same _ =>
          cases selected.symm.trans same
          rfl
      | raised _ held | committed _ held | threw _ held => cases closed.symm.trans held
  | raised selected held opened =>
      cases second with
      | noPhoto unselected => cases selected.symm.trans unselected
      | noRealm _ closed => cases held.symm.trans closed
      | raised same holds _ =>
          cases selected.symm.trans same
          cases held.symm.trans holds
          rfl
      | committed _ holds idle | threw _ holds idle =>
          cases held.symm.trans holds
          exact absurd idle opened
  | committed selected held idle =>
      cases second with
      | noPhoto unselected => cases selected.symm.trans unselected
      | noRealm _ closed => cases held.symm.trans closed
      | raised _ holds opened =>
          cases held.symm.trans holds
          exact absurd idle opened
      | committed same holds _ =>
          cases selected.symm.trans same
          cases held.symm.trans holds
          simp only [withoutCells, reportedView_withoutCalls]
          rfl
  | threw selected held idle =>
      cases second with
      | noPhoto unselected => cases selected.symm.trans unselected
      | noRealm _ closed => cases held.symm.trans closed
      | raised _ holds opened =>
          cases held.symm.trans holds
          exact absurd idle opened
      | threw same holds _ =>
          cases selected.symm.trans same
          cases held.symm.trans holds
          simp only [withoutCells, NoteTakingView.showDefaultAlert, reportedView_withoutCalls]
          rfl

theorem updateNoteWhenDidEndEditing_withoutCells (s : App) (commit : CommitOutcome) :
    (s.updateNoteWhenDidEndEditing commit).withoutCells =
      (s.withoutCells.updateNoteWhenDidEndEditing commit).withoutCells :=
  (saved_updateNoteWhenDidEndEditing s commit).withoutCells_eq
    (saved_updateNoteWhenDidEndEditing s.withoutCells commit)

/-! ### Runs -/

section Steps

variable [DateFormatter]

theorem step_withoutCells {s s' t : App} {e : Event} (same : s.withoutCells = t.withoutCells)
    (taken : s.step e = some s') :
    ∃ steps t', play App.step t e.withoutCells = some (steps, t') ∧
      s'.withoutCells = t'.withoutCells := by
  have running : s.raised.isSome = false := by
    simpa using (stepped_of_step taken).1
  have running' : t.raised.isSome = false := by rw [← raised_eq_of_withoutCells same, running]
  -- Of an event with one handler it is enough that the handler lets nothing through.
  have handled {e' : Event} {f g : App → App} (only : e.withoutCells = [e'])
      (results : s.step e = some (f s)) (results' : t.step e' = some (g t))
      (unseen : ∀ u, (f u).withoutCells = (g u.withoutCells).withoutCells)
      (unseen' : ∀ u, (g u).withoutCells = (g u.withoutCells).withoutCells) :
      ∃ steps t', play App.step t e.withoutCells = some (steps, t') ∧
        s'.withoutCells = t'.withoutCells := by
    obtain rfl := Option.some.inj (taken.symm.trans results)
    rw [only]
    exact ⟨_, _, play_singleton results', by rw [unseen, same, ← unseen']⟩
  have plain (f : App → App) (only : e.withoutCells = [e])
      (results : ∀ u : App, u.raised.isSome = false → u.step e = some (f u))
      (unseen : ∀ u, (f u).withoutCells = (f u.withoutCells).withoutCells) :=
    handled only (results s running) (results t running') unseen unseen
  cases e with
  | permissionResponse status bounds thumbnail =>
      exact plain _ rfl (fun u runs => by simp only [step, runs]; rfl)
        fun u => permissionResponse_withoutCells u status bounds thumbnail
  | didSelectItemAt indexPath thumbnail cells =>
      exact handled rfl (by simp [step, running]) (by simp [step, running'])
        (fun u => didSelectItemAt_withoutCells u indexPath thumbnail cells ⟨.nil, .nil⟩)
        (fun u => didSelectItemAt_withoutCells u indexPath thumbnail ⟨.nil, .nil⟩ ⟨.nil, .nil⟩)
  | largeImageLoaded i image cells =>
      cases pending : s.pendingLoads[i]? with
      | none => simp [step, running, pending] at taken
      | some load =>
          have pending' : t.pendingLoads[i]? = some load :=
            pendingLoads_eq_of_withoutCells same ▸ pending
          let answered (u : App) : App := { u with pendingLoads := u.pendingLoads.eraseIdx i }
          have unseen (u : App) (cells : CellReplies) :=
            largeImageLoaded_withoutCells (answered u) load image cells ⟨.nil, .nil⟩
          exact handled (f := fun u => (answered u).largeImageLoaded load image cells)
            (g := fun u => (answered u).largeImageLoaded load image ⟨.nil, .nil⟩) rfl
            (by simp [step, running, pending, answered])
            (by simp [step, running', pending', answered])
            (fun u => unseen u cells) (fun u => unseen u ⟨.nil, .nil⟩)
  | cellForItemAt indexPath thumbnail =>
      obtain rfl : s.cellForItemAt indexPath thumbnail = s' := by
        simpa [step, running] using taken
      refine ⟨[], t, rfl, ?_⟩
      rw [← same, withoutCells, (cellForItemAt_redrawn s indexPath thumbnail).frame]
      rfl
  | typeTitle text =>
      exact plain (fun u => { u with view := { u.view with noteTitleTextField := text } }) rfl
        (fun u runs => by simp only [step, runs]; rfl) fun _ => rfl
  | typeDetail text =>
      exact plain (fun u => { u with view := { u.view with noteDetailTextView := text } }) rfl
        (fun u runs => by simp only [step, runs]; rfl) fun _ => rfl
  | textFieldDidEndEditing commit =>
      exact plain _ rfl (fun u runs => by simp only [step, runs]; rfl)
        fun u => updateNoteWhenDidEndEditing_withoutCells u commit
  | textViewShouldBeginEditing =>
      exact plain _ rfl (fun u runs => by simp only [step, runs]; rfl)
        fun u => by simp only [textViewShouldBeginEditing_eq]; rfl
  | textViewShouldEndEditing =>
      exact plain _ rfl (fun u runs => by simp only [step, runs]; rfl)
        fun u => by simp only [textViewShouldEndEditing_eq]; rfl
  | textViewDidEndEditing commit =>
      exact plain _ rfl (fun u runs => by simp only [step, runs]; rfl)
        fun u => updateNoteWhenDidEndEditing_withoutCells u commit
  | photoLibraryDidChange changeDetails =>
      exact plain _ rfl (fun u runs => by simp only [step, runs]; rfl) fun _ => rfl
  | viewWillLayoutSubviews itemSize =>
      exact plain (fun u => { u with viewModel := u.viewModel.updateThumbnailSize itemSize }) rfl
        (fun u runs => by simp only [step, runs]; rfl) fun _ => rfl

/-- Steps of apps that agree without their cells agree without their cells, whatever
thumbnails the two get. -/
def cellTraffic : Simulation App.step App.step where
  Rel s t := s.withoutCells = t.withoutCells
  Allowed _ := True
  emits _ e := e.withoutCells
  carried _ same taken := step_withoutCells same taken

/-- The events of a history without their cell traffic. -/
def eventsWithoutCells (history : List (Transition App Event)) : List Event :=
  history.flatMap fun t => t.event.withoutCells

/-- A run in which UIKit takes every call. -/
structure TakenRun (launch : Launch) (history : List (Transition App Event)) (s : App) :
    Prop where
  run : launch.Run history s
  taken : ∀ t ∈ history, ∀ call ∈ callsIn t, call.isTaken = true

/-- Two runs from one launch in which UIKit takes every call, and whose events differ only
in the cells asked for and in the thumbnails these get, end in apps that differ only in
their cells: the table, the calls of `saveNote`, the texts and picture on screen, the
selection, the pending loads and an exception are the same. -/
theorem withoutCells_eq_of_eventsWithoutCells {launch : Launch} {s₁ s₂ : App}
    {history₁ history₂ : List (Transition App Event)} (run₁ : TakenRun launch history₁ s₁)
    (run₂ : TakenRun launch history₂ s₂)
    (same : eventsWithoutCells history₁ = eventsWithoutCells history₂) :
    s₁.withoutCells = s₂.withoutCells := by
  have related : cellTraffic.Rel launch.app launch.app := rfl
  obtain ⟨t, first, second⟩ := cellTraffic.exists_common related run₁.run run₂.run
    (fun _ _ => trivial) (fun _ _ => trivial) same
  exact first.trans second.symm

end Steps

/-- The third photo is shown and gets a note, once with no cell on screen. -/
def noteWithoutCells : List Event :=
  [.permissionResponse true ⟨320, 240⟩ .delivered,
    .largeImageLoaded 0 .delivered ⟨.nil, .nil⟩, .typeTitle "Sunset",
    .textFieldDidEndEditing .succeeds]

/-- The same with cells drawn before and after. -/
def noteWithCells : List Event :=
  [.cellForItemAt ⟨2⟩ .nil, .permissionResponse true ⟨320, 240⟩ .delivered,
    .cellForItemAt ⟨2⟩ .delivered, .largeImageLoaded 0 .delivered ⟨.delivered, .nil⟩,
    .typeTitle "Sunset", .textFieldDidEndEditing .succeeds, .cellForItemAt ⟨0⟩ .delivered]

theorem withoutCells_eq_noteWithCells :
    (Launch.threePhotos.app.after noteWithCells).withoutCells =
      (Launch.threePhotos.app.after noteWithoutCells).withoutCells := by
  have plays : Launch.threePhotos.app.Plays noteWithCells _
      (Launch.threePhotos.app.after noteWithCells) := rfl
  have plays' : Launch.threePhotos.app.Plays noteWithoutCells _
      (Launch.threePhotos.app.after noteWithoutCells) := rfl
  exact @withoutCells_eq_of_eventsWithoutCells DateFormatter.plain _ _ _ _ _
    (@TakenRun.mk DateFormatter.plain _ _ _ plays.run (by decide))
    (@TakenRun.mk DateFormatter.plain _ _ _ plays'.run (by decide)) rfl

end App

end Phonotes
