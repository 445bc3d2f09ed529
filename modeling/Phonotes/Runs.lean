import Phonotes.Library.InBand
import Phonotes.StepLaws

/-!
Runs of the app, from its launch.

Three laws are read off the outcomes of a step and used by every result about
runs: which photo becomes current (`currentPhotoId_of_stepped`), which calls of
`NoteManager.saveNote` are made (`saveNoteCalls_of_stepped`), and which calls on
UIKit (`calls_of_stepped`). Each says it in terms of the event and the state
before it.
-/

namespace Phonotes

open TransitionSystem

/-- What differs between one start of the app and another: whether the library
may be read already, the size of the view, the photos on the device, and the
note table if the Realm opened. -/
structure Launch where
  isPhotoLibraryAccessAllowed : Bool
  bounds : CGSize
  library : List PHAsset
  opened : Option NoteTable

namespace Launch

/-- A device with three photos and no notes, whose library may be read already. -/
def threePhotos : Launch where
  isPhotoLibraryAccessAllowed := true
  bounds := ⟨320, 240⟩
  library := [⟨"a", none⟩, ⟨"b", none⟩, ⟨"c", none⟩]
  opened := some fun _ => none

/-- The screen as it first appears. -/
def app (self : Launch) : App :=
  App.viewDidLoad self.isPhotoLibraryAccessAllowed self.bounds self.library self.opened

/-- The runs of the app from this launch. -/
abbrev Run [DateFormatter] (self : Launch) : List (Transition App Event) → App → Prop :=
  TransitionSystem.Run App.step self.app

end Launch

namespace App

open NoteTakingViewModel

/-- These events lead from one state to the other, with dates formatted plainly. -/
def Plays (start : App) (events : List Event) (history : List (Transition App Event))
    (s : App) : Prop :=
  play (@App.step DateFormatter.plain) start events = some (history, s)

theorem Plays.run {start s : App} {events : List Event} {history : List (Transition App Event)}
    (plays : start.Plays events history s) :
    Run (@App.step DateFormatter.plain) start history s :=
  run_of_play plays

/-- The photo of the initial row is shown. -/
def startup : List Event :=
  [.permissionResponse true ⟨320, 240⟩ .delivered,
    .largeImageLoaded 0 .delivered ⟨.delivered, .delivered⟩]

/-- The last state of such a run. -/
def after (start : App) (events : List Event) : App :=
  ((play (@App.step DateFormatter.plain) start events).map Prod.snd).getD start

/-- Of the three photos the third is shown. -/
def thirdShown : App := Launch.threePhotos.app.after startup

/-- What a transition adds to the calls of `NoteManager.saveNote`. -/
def saveNoteCallsIn (t : Transition App Event) : List SaveNoteCall :=
  t.after.noteManager.saveNoteCalls.drop t.before.noteManager.saveNoteCalls.length

/-- What a transition adds to the calls on UIKit. -/
def callsIn (t : Transition App Event) : List UICall :=
  t.after.view.calls.drop t.before.view.calls.length

/-- The id of `currentSelectedPhoto`. -/
def currentPhotoId (s : App) : Option String :=
  s.viewModel.currentSelectedPhoto.map Photo.photoId

/-- A detail text as it is stored: the placeholder is stored as the empty
string. -/
def storedDetail (text : String) : String :=
  if text = Constants.defaultNoteDetail then "" else text

/-- The call of `NoteManager.saveNote` that saves the texts on screen for a photo. -/
def screenCall (s : App) (photoId : String) : SaveNoteCall :=
  ⟨photoId, some s.view.noteTitleTextField, some (storedDetail s.view.noteDetailTextView)⟩

@[simp] theorem saveNoteCall_editedViewModel (s : App) (photo : Photo) :
    s.editedViewModel.saveNoteCall photo = s.screenCall photo.photoId := by
  simp only [saveNoteCall, screenCall, noteDetailText, editedViewModel, storedDetail,
    Option.some.injEq]
  split_ifs <;> rfl

/-! ### Selections -/

/-- The asset whose photo this event makes the current one. -/
def selects (s : App) : Event → Option PHAsset
  | .permissionResponse true bounds .delivered =>
      (s.withPhotoManager bounds).viewModel.assetAt s.viewModel.selectedIndexPath.item
  | .didSelectItemAt indexPath .delivered _ =>
      if s.view.getAccessButtonIsHidden then s.viewModel.assetAt indexPath.item else none
  | _ => none

theorem selects_of_endsEditing {s : App} {e : Event} {commit : CommitOutcome}
    (ended : e.endsEditing = some commit) : s.selects e = none := by
  cases e <;> first | rfl | cases ended

/-- Saving keeps the id of the current photo. -/
theorem Saved.currentPhotoId {s s' : App} {commit : CommitOutcome}
    (saved : Saved s commit s') : s'.currentPhotoId = s.currentPhotoId := by
  cases saved with
  | noPhoto _ => rfl
  | noRealm _ _ => rfl
  | raised _ _ _ => rfl
  | committed selected _ _ => simp [App.currentPhotoId, noteSaved, selected]
  | threw selected _ _ => simp [App.currentPhotoId, noteSaved, selected]

variable {s s' : App} {e : Event}

/-- A selection replaces the current photo; otherwise, unless an edit ends, at
most its image changes. -/
theorem currentSelectedPhoto_of_stepped [DateFormatter] (unedited : e.endsEditing = none)
    (stepped : Stepped s e s') :
    match s.selects e with
    | some asset => s'.viewModel.currentSelectedPhoto =
        some (s.viewModel.fetchedPhoto s.noteManager asset)
    | none => ∃ image, s'.viewModel.currentSelectedPhoto =
        withImage s.viewModel.currentSelectedPhoto image := by
  cases stepped with
  | denied => exact ⟨none, rfl⟩
  | @firstUnselectable bounds thumbnail missing =>
      have none : s.selects (.permissionResponse true bounds thumbnail) = none := by
        cases thumbnail with
        | delivered => exact missing
        | nil => rfl
      rw [none]
      rw [withPhotoManager_eq]
      exact ⟨Option.none, rfl⟩
  | firstUnfetched _ =>
      rw [withPhotoManager_eq]
      exact ⟨none, rfl⟩
  | firstSelected _ found =>
      simp only [selects, found]
      rw [withPhotoManager_eq]
      rfl
  | @tapIgnored indexPath thumbnail cells shown =>
      have none : s.selects (.didSelectItemAt indexPath thumbnail cells) = none := by
        cases thumbnail <;> simp [selects, shown]
      rw [none]
      exact ⟨Option.none, rfl⟩
  | @tapUnselectable indexPath thumbnail cells hidden missing =>
      have none : s.selects (.didSelectItemAt indexPath thumbnail cells) = none := by
        cases thumbnail <;> simp [selects, missing]
      rw [none]
      exact ⟨Option.none, by simp [withImage]⟩
  | tapUnfetched _ _ => exact ⟨none, rfl⟩
  | tapSelected hidden _ found =>
      simp only [selects, hidden, if_true, found]
      rfl
  | largeImageLoaded _ => exact ⟨_, largeImageLoaded_currentSelectedPhoto ..⟩
  | cellForItemAt => exact ⟨none, (cellForItemAt_redrawn ..).currentSelectedPhoto⟩
  | typedTitle => exact ⟨none, rfl⟩
  | typedDetail => exact ⟨none, rfl⟩
  | endedEditing ended _ => simp [unedited] at ended
  | beganEditing =>
      rw [textViewShouldBeginEditing_eq]
      exact ⟨none, rfl⟩
  | willEndEditing =>
      rw [textViewShouldEndEditing_eq]
      exact ⟨none, rfl⟩
  | libraryChanged => exact ⟨none, rfl⟩
  | laidOut => exact ⟨none, rfl⟩

/-- Only a selection changes which photo is the current one. -/
theorem currentPhotoId_of_stepped [DateFormatter] (stepped : Stepped s e s') :
    s'.currentPhotoId = ((s.selects e).map PHAsset.localIdentifier).or s.currentPhotoId := by
  cases ended : e.endsEditing with
  | some commit =>
      rw [selects_of_endsEditing ended]
      cases stepped with
      | endedEditing _ saved => exact saved.currentPhotoId
      | _ => cases ended
  | none =>
      have current := currentSelectedPhoto_of_stepped ended stepped
      unfold currentPhotoId
      cases selected : s.selects e with
      | none =>
          rw [selected] at current
          obtain ⟨image, same⟩ := current
          rw [same, withImage_map_photoId]
          rfl
      | some asset =>
          rw [selected] at current
          rw [current]
          rfl

/-! ### Calls of `NoteManager.saveNote` -/

/-- The call of `NoteManager.saveNote` that this event makes: one when an edit is
ended with a photo selected. -/
def savesNote (s : App) (e : Event) : Option SaveNoteCall :=
  match e.endsEditing with
  | none => none
  | some _ => s.currentPhotoId.map s.screenCall

theorem savesNote_eq_some_iff {call : SaveNoteCall} :
    s.savesNote e = some call ↔
      e.endsEditing.isSome ∧ ∃ id, s.currentPhotoId = some id ∧ s.screenCall id = call := by
  unfold savesNote
  cases e.endsEditing with
  | none => simp
  | some commit => simp [Option.map_eq_some_iff]

/-- Only ending an edit touches the note manager. -/
theorem noteManager_of_stepped [DateFormatter] (unedited : e.endsEditing = none)
    (stepped : Stepped s e s') : s'.noteManager = s.noteManager := by
  cases stepped with
  | endedEditing ended saved => simp [unedited] at ended
  | largeImageLoaded _ => simp
  | beganEditing => rw [textViewShouldBeginEditing_eq]
  | willEndEditing => rw [textViewShouldEndEditing_eq]
  | _ => rfl

theorem Saved.saveNoteCalls {commit : CommitOutcome} (saved : Saved s commit s') :
    s'.noteManager.saveNoteCalls = s.noteManager.saveNoteCalls ++
      (s.currentPhotoId.map s.screenCall).toList := by
  unfold App.currentPhotoId
  cases saved with
  | noPhoto unselected => simp [unselected]
  | noRealm selected _ => simp [selected]
  | raised selected _ _ => simp [selected]
  | committed selected _ _ => simp [selected]
  | threw selected _ _ => simp [selected]

theorem saveNoteCalls_of_stepped [DateFormatter] (stepped : Stepped s e s') :
    s'.noteManager.saveNoteCalls =
      s.noteManager.saveNoteCalls ++ (s.savesNote e).toList := by
  cases ended : e.endsEditing with
  | none => simp [savesNote, ended, noteManager_of_stepped ended stepped]
  | some commit =>
      cases stepped with
      | endedEditing _ saved => simpa only [savesNote, ended] using saved.saveNoteCalls
      | _ => cases ended

theorem saveNoteCallsIn_of_stepped [DateFormatter] (stepped : Stepped s e s') :
    saveNoteCallsIn ⟨s, e, s'⟩ = (s.savesNote e).toList := by
  simp only [saveNoteCallsIn, saveNoteCalls_of_stepped stepped, List.drop_left]

/-! ### The note table -/

/-- The commit of this transition, if it makes one, goes through. -/
def CommitSucceeds (t : Transition App Event) : Prop := t.event.endsEditing ≠ some .throws

instance (t : Transition App Event) : Decidable (CommitSucceeds t) :=
  inferInstanceAs (Decidable (_ ≠ _))

/-- While commits succeed, the Realm stays open without a transaction, and the
table changes by the saves alone. -/
theorem stored_of_stepped [DateFormatter] (ready : s.noteManager.Ready)
    (succeeds : CommitSucceeds ⟨s, e, s'⟩) (stepped : Stepped s e s') :
    s'.noteManager.Ready ∧
      s'.noteManager.stored = (s.savesNote e).elim s.noteManager.stored
        (SaveNoteCall.write s.noteManager.stored) := by
  cases ended : e.endsEditing with
  | none =>
      rw [noteManager_of_stepped ended stepped]
      simp [savesNote, ended, ready]
  | some commit =>
      simp only [savesNote, ended]
      obtain ⟨realm, held, idle⟩ := ready
      cases stepped with
      | endedEditing same saved =>
          obtain rfl := Option.some.inj (ended.symm.trans same)
          cases saved with
          | noPhoto unselected => exact ⟨⟨realm, held, idle⟩, by simp [currentPhotoId, unselected]⟩
          | noRealm _ closed => simp [held] at closed
          | raised _ holds opened =>
              obtain rfl := Option.some.inj (held.symm.trans holds)
              exact absurd idle opened
          | committed selected holds _ =>
              obtain rfl := Option.some.inj (held.symm.trans holds)
              have stored : s.noteManager.stored = realm.committed := by
                funext photoId
                simp [NoteManager.stored, held]
              rw [currentPhotoId, selected, stored, Option.map_some, Option.map_some,
                ← saveNoteCall_editedViewModel]
              exact ⟨⟨_, rfl, rfl⟩, rfl⟩
          | threw _ _ _ => exact absurd ended succeeds
      | _ => cases ended

/-- The save that gets into its write block, whatever becomes of the commit. -/
def writesNote (s : App) (e : Event) : Option SaveNoteCall :=
  match s.noteManager.realm with
  | none => none
  | some realm => if realm.Idle then s.savesNote e else none

theorem writesNote_of_unedited (unedited : e.endsEditing = none) : s.writesNote e = none := by
  have silent : s.savesNote e = none := by simp [savesNote, unedited]
  unfold writesNote
  cases s.noteManager.realm with
  | none => rfl
  | some realm => simp [silent]

theorem writesNote_of_no_photo (unselected : s.viewModel.currentSelectedPhoto = none) :
    s.writesNote e = none := by
  have silent : s.savesNote e = none := by
    simp only [savesNote, App.currentPhotoId, unselected, Option.map_none]
    cases e.endsEditing <;> rfl
  unfold writesNote
  cases s.noteManager.realm with
  | none => rfl
  | some realm => simp [silent]

theorem writesNote_of_idle {commit : CommitOutcome} {photo : Photo} {realm : Realm}
    (ended : e.endsEditing = some commit)
    (selected : s.viewModel.currentSelectedPhoto = some photo)
    (held : s.noteManager.realm = some realm) (idle : realm.Idle) :
    s.writesNote e = some (s.screenCall photo.photoId) := by
  simp only [writesNote, held, idle, if_true, savesNote, ended, App.currentPhotoId, selected,
    Option.map_some]

/-- The rows as the process sees them change by these writes alone. -/
theorem row_of_stepped [DateFormatter] (stepped : Stepped s e s') :
    s'.noteManager.row = (s.writesNote e).elim s.noteManager.row
      (SaveNoteCall.write s.noteManager.row) := by
  cases ended : e.endsEditing with
  | none => rw [noteManager_of_stepped ended stepped, writesNote_of_unedited ended]; rfl
  | some commit =>
      have written {photo : Photo} {realm : Realm}
          (selected : s.viewModel.currentSelectedPhoto = some photo)
          (held : s.noteManager.realm = some realm) (idle : realm.Idle) :
          (s.writesNote e).elim s.noteManager.row (SaveNoteCall.write s.noteManager.row) =
            s.editedViewModel.savedTable photo realm := by
        have row : s.noteManager.row = realm.committed := by
          funext photoId
          simp only [NoteManager.row, held, Option.bind_some,
            Transaction.Versioned.current_of_idle idle]
        rw [writesNote_of_idle ended selected held idle, row, Option.elim_some,
          ← saveNoteCall_editedViewModel]
        rfl
      cases stepped with
      | endedEditing _ saved =>
          cases saved with
          | noPhoto unselected => rw [writesNote_of_no_photo unselected]; rfl
          | noRealm _ closed =>
              funext photoId
              simp [NoteManager.row, writesNote, closed]
          | raised _ holds opened =>
              funext photoId
              simp [NoteManager.row, writesNote, holds, opened]
          | committed selected held idle => exact (written selected held idle).symm
          | threw selected held idle => exact (written selected held idle).symm
      | _ => cases ended

/-- The flag of a photo's record after an event. -/
theorem hasNote_of_stepped [DateFormatter] (stepped : Stepped s e s') (photoId : String) :
    s'.noteManager.hasNote photoId =
      match s.writesNote e with
      | none => s.noteManager.hasNote photoId
      | some call =>
          if photoId = call.photoId then call.note.hasNote
          else s.noteManager.hasNote photoId := by
  simp only [NoteManager.hasNote, row_of_stepped stepped]
  cases s.writesNote e with
  | none => rfl
  | some call =>
      simp only [Option.elim_some, SaveNoteCall.write, Function.update_apply]
      split_ifs <;> rfl

/-! ### Calls on UIKit -/

/-- The two rows that the completion of `didSelectItemAt` reloads. -/
def selectionReloads (s : App) (indexPath : IndexPath) : List UICall :=
  [.reloadItems s.viewModel.selectedIndexPath s.viewModel.numberOfItems s.view.loadedItemCount,
    .reloadItems indexPath s.viewModel.numberOfItems s.view.loadedItemCount]

/-- The calls that ending an edit makes. -/
def saveReports (s : App) (commit : CommitOutcome) : List UICall :=
  match s.viewModel.currentSelectedPhoto, s.noteManager.realm with
  | none, _ => [.alert "Note not saved" "Cannot find selected photo"]
  | some _, none => []
  | some _, some realm =>
      if realm.Idle then
        (if s.viewModel.SelectedCellCached then
          [.reloadItems s.viewModel.selectedIndexPath s.viewModel.numberOfItems
            s.view.loadedItemCount]
        else []) ++
        (if commit = .throws then [.alert "Note not saved" "Error: Save Note Failed"] else [])
      else []

/-- The calls on UIKit that this event makes. -/
def callsOn (s : App) (e : Event) : List UICall :=
  match e with
  | .permissionResponse true bounds _ =>
      let items := (s.withPhotoManager bounds).viewModel
      (if items.assetAt s.viewModel.selectedIndexPath.item = none then [.populate] else []) ++
        [.reloadData items.numberOfItems]
  | .didSelectItemAt indexPath _ _ =>
      if s.view.getAccessButtonIsHidden ∧ s.viewModel.assetAt indexPath.item = none then
        .populate :: s.selectionReloads indexPath
      else []
  | .largeImageLoaded i _ _ =>
      match s.pendingLoads[i]? with
      | none => []
      | some load =>
          .populate :: match load.completion with
            | .viewWillAppear => []
            | .didSelectItemAt => s.selectionReloads load.indexPath
  | .textFieldDidEndEditing commit => s.saveReports commit
  | .textViewDidEndEditing commit => s.saveReports commit
  | _ => []

theorem callsOn_of_endsEditing {commit : CommitOutcome}
    (ended : e.endsEditing = some commit) : s.callsOn e = s.saveReports commit := by
  cases e with
  | textFieldDidEndEditing outcome =>
      cases ended
      rfl
  | textViewDidEndEditing outcome =>
      cases ended
      rfl
  | _ => cases ended

theorem Saved.calls {commit : CommitOutcome} (saved : Saved s commit s') :
    s'.view.calls = s.view.calls ++ s.saveReports commit := by
  cases saved with
  | noPhoto unselected => simp [saveReports, unselected, NoteTakingView.showDefaultAlert]
  | noRealm selected closed => simp [saveReports, selected, closed]
  | raised selected held opened => simp [saveReports, selected, held, opened]
  | committed selected held idle =>
      by_cases cached : s.viewModel.SelectedCellCached
      · simp [saveReports, selected, held, idle, reportedView, cached,
          NoteTakingView.reloadItems]
      · simp [saveReports, selected, held, idle, reportedView, cached]
  | threw selected held idle =>
      by_cases cached : s.viewModel.SelectedCellCached
      · simp [saveReports, selected, held, idle, reportedView, cached,
          NoteTakingView.reloadItems, NoteTakingView.showDefaultAlert]
      · simp [saveReports, selected, held, idle, reportedView, cached,
          NoteTakingView.showDefaultAlert]

theorem calls_of_stepped [DateFormatter] (stepped : Stepped s e s') :
    s'.view.calls = s.view.calls ++ s.callsOn e := by
  cases stepped with
  | firstUnselectable missing =>
      simp only [callsOn, missing, if_true]
      exact List.append_assoc s.view.calls _ _
  | firstUnfetched found =>
      simp only [callsOn, found, reduceCtorEq, if_false, List.nil_append]
      rfl
  | firstSelected held found =>
      simp only [callsOn, found, reduceCtorEq, if_false, List.nil_append]
      rfl
  | tapIgnored shown => simp [callsOn, shown]
  | tapUnselectable hidden missing =>
      simp [callsOn, hidden, missing, selectionReloads, NoteTakingView.reloadItems,
        NoteTakingView.populateViewWithSelectedPhotoInfo]
  | tapUnfetched hidden found => simp [callsOn, found]
  | tapSelected hidden held found => simp [callsOn, found, startLoad]
  | largeImageLoaded pending =>
      simp only [callsOn, pending, largeImageLoaded_view]
      cases ‹PendingLoad›.completion with
      | viewWillAppear => rfl
      | didSelectItemAt =>
          simp [selectionReloads, NoteTakingView.reloadItems,
            NoteTakingView.populateViewWithSelectedPhotoInfo]
  | endedEditing ended saved => rw [saved.calls, callsOn_of_endsEditing ended]
  | beganEditing =>
      rw [textViewShouldBeginEditing_eq]
      exact (List.append_nil _).symm
  | willEndEditing =>
      rw [textViewShouldEndEditing_eq]
      exact (List.append_nil _).symm
  | _ => exact (List.append_nil _).symm

/-- The event overwrites the texts on screen: a load is delivered, or a selection
is reported as done though the row has no asset. -/
def populates (s : App) : Event → Bool
  | .permissionResponse true bounds _ =>
      ((s.withPhotoManager bounds).viewModel.assetAt s.viewModel.selectedIndexPath.item).isNone
  | .didSelectItemAt indexPath _ _ =>
      s.view.getAccessButtonIsHidden && (s.viewModel.assetAt indexPath.item).isNone
  | .largeImageLoaded i _ _ => (s.pendingLoads[i]?).isSome
  | _ => false

theorem populate_notMem_saveReports (s : App) (commit : CommitOutcome) :
    .populate ∉ s.saveReports commit := by
  intro member
  unfold saveReports at member
  cases selected : s.viewModel.currentSelectedPhoto with
  | none => simp [selected] at member
  | some photo =>
      cases held : s.noteManager.realm with
      | none => simp [selected, held] at member
      | some realm =>
          simp only [selected, held] at member
          split_ifs at member <;> simp at member

theorem populate_mem_callsOn_iff : .populate ∈ s.callsOn e ↔ s.populates e = true := by
  cases e with
  | permissionResponse status bounds thumbnail =>
      cases status <;> simp [callsOn, populates]
  | didSelectItemAt indexPath thumbnail cells =>
      simp only [callsOn, populates, Bool.and_eq_true, Option.isNone_iff_eq_none]
      split_ifs with immediate <;> simp [immediate]
  | largeImageLoaded i image cells =>
      cases pending : s.pendingLoads[i]? with
      | none => simp [callsOn, populates, pending]
      | some load => simp [callsOn, populates, pending]
  | textFieldDidEndEditing commit =>
      exact iff_of_false (populate_notMem_saveReports s commit) Bool.false_ne_true
  | textViewDidEndEditing commit =>
      exact iff_of_false (populate_notMem_saveReports s commit) Bool.false_ne_true
  | _ => simp [callsOn, populates]

/-! ### The texts on screen -/

/-- The text of the title field after an event that does not populate it. -/
def titleText (s : App) : Event → String
  | .typeTitle text => text
  | _ => s.view.noteTitleTextField

/-- The text of the detail view after an event that does not populate it. -/
def detailText (s : App) : Event → String
  | .typeDetail text => text
  | .textViewShouldBeginEditing =>
      if s.view.noteDetailTextView = Constants.defaultNoteDetail then ""
      else s.view.noteDetailTextView
  | .textViewShouldEndEditing =>
      if s.view.noteDetailTextView = "" then Constants.defaultNoteDetail
      else s.view.noteDetailTextView
  | _ => s.view.noteDetailTextView

/-- Clearing and restoring the placeholder does not change what would be stored. -/
theorem storedDetail_detailText (untyped : ∀ text, e ≠ .typeDetail text) :
    storedDetail (s.detailText e) = storedDetail s.view.noteDetailTextView := by
  cases e with
  | typeDetail text => exact absurd rfl (untyped text)
  | textViewShouldBeginEditing => exact InBand.erase_erase "" Constants.defaultNoteDetail _
  | textViewShouldEndEditing => exact InBand.erase_fill "" Constants.defaultNoteDetail _
  | _ => rfl

theorem texts_of_stepped [DateFormatter] (kept : s.populates e = false)
    (stepped : Stepped s e s') :
    s'.view.noteTitleTextField = s.titleText e ∧
      s'.view.noteDetailTextView = s.detailText e := by
  cases stepped with
  | firstUnselectable missing => simp [populates, missing] at kept
  | tapUnselectable hidden missing => simp [populates, hidden, missing] at kept
  | largeImageLoaded pending => simp [populates, pending] at kept
  | endedEditing ended saved =>
      obtain ⟨title, detail, -⟩ := saved.view_texts
      cases e with
      | textFieldDidEndEditing commit => exact ⟨title, detail⟩
      | textViewDidEndEditing commit => exact ⟨title, detail⟩
      | _ => cases ended
  | beganEditing =>
      rw [textViewShouldBeginEditing_eq]
      exact ⟨rfl, rfl⟩
  | willEndEditing =>
      rw [textViewShouldEndEditing_eq]
      exact ⟨rfl, rfl⟩
  | _ => exact ⟨rfl, rfl⟩

theorem callsIn_of_stepped [DateFormatter] (stepped : Stepped s e s') :
    callsIn ⟨s, e, s'⟩ = s.callsOn e := by
  simp only [callsIn, calls_of_stepped stepped, List.drop_left]

end App

end Phonotes
