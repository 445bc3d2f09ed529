import Phonotes.Library.LastWrite
import Phonotes.Runs

/-!
The note table as a notebook.

What the app is for: one note for each photo, the last one saved. The note of
the current photo is looked up when the photo is fetched and kept in the photo,
so reading it back rests on `UpToDate`: the kept note is always the one that
would be looked up now.
-/

namespace Phonotes

open TransitionSystem LastWrite NoteTakingViewModel

/-- The flag says whether there is a text. -/
def Note.Truthful (self : Note) : Prop :=
  self.hasNote = true ↔ self.noteTitle.getD "" ≠ "" ∨ self.noteDetail.getD "" ≠ ""

namespace App

/-! ### The notebook -/

/-- The record of a photo for which a title and a detail were saved. -/
def noteOf (photoId title detail : String) : Note where
  photoId
  hasNote := title ≠ "" ∨ storedDetail detail ≠ ""
  noteTitle := some title
  noteDetail := some (storedDetail detail)

theorem truthful_noteOf (photoId title detail : String) :
    (noteOf photoId title detail).Truthful := by
  simp [Note.Truthful, noteOf]

/-- The record that a transition saves: the texts on screen, under the current
photo. -/
def savesIn (t : Transition App Event) : List (String × Option Note) :=
  match t.event.endsEditing, t.before.currentPhotoId with
  | some _, some photoId =>
      [(photoId, some (noteOf photoId t.before.view.noteTitleTextField
        t.before.view.noteDetailTextView))]
  | _, _ => []

/-- History: the records saved, oldest first. -/
def saves : Observer App Event (List (String × Option Note)) where
  initial := []
  observe saved t := saved ++ savesIn t

theorem saves_after (history : List (Transition App Event)) :
    saves.after history = history.flatMap savesIn := by
  induction history using List.reverseRecOn with
  | nil => rfl
  | append_singleton history t ih =>
      rw [Observer.after_snoc, ih, List.flatMap_append, List.flatMap_singleton]
      rfl

theorem truthful_of_mem_savesIn {t : Transition App Event} {saved : String × Option Note}
    (member : saved ∈ savesIn t) {note : Note} (isNote : saved.2 = some note) :
    note.Truthful := by
  unfold savesIn at member
  split at member
  · rw [List.mem_singleton] at member
    subst member
    obtain rfl := Option.some.inj isNote
    exact truthful_noteOf _ _ _
  · cases member

/-- A delivery exposes the record of the photo that is current. -/
def ReadsBack (t : Transition App Event) : Prop :=
  ∀ i image cells, t.event = .largeImageLoaded i image cells →
    ∀ photo, t.after.viewModel.currentSelectedPhoto = some photo →
      (t.after.viewModel.noteTitle, t.after.viewModel.noteDetail) =
        NoteManager.shownNote (t.after.noteManager.stored photo.photoId)

/-- No record changes but that of the current photo. -/
def KeepsOthers (t : Transition App Event) : Prop :=
  ∀ photoId, t.before.currentPhotoId ≠ some photoId →
    t.after.noteManager.stored photoId = t.before.noteManager.stored photoId

/-! ### The note of the current photo -/

/-- The current photo keeps the note that would be looked up now. -/
def UpToDate (s : App) : Prop :=
  ∀ photo, s.viewModel.currentSelectedPhoto = some photo →
    photo.note = s.noteManager.getNote photo.photoId

/-- The code fills in the record as the notebook has it. -/
theorem note_screenCall (s : App) (photoId : String) :
    (s.screenCall photoId).note =
      noteOf photoId s.view.noteTitleTextField s.view.noteDetailTextView := by
  have isEmpty (text : String) : text.isEmpty = decide (text = "") := by
    rw [Bool.eq_iff_iff, decide_eq_true_iff]
    exact String.isEmpty_iff
  simp [SaveNoteCall.note, screenCall, NoteManager.newNote, NoteManager.isEmptyOrNil, noteOf,
    isEmpty]

/-- One more transition in the notebook is one more save in the table. -/
theorem lastWrite_savesIn (table : NoteTable) (saved : List (String × Option Note)) (s s' : App)
    (e : Event) :
    lastWrite table (saved ++ savesIn ⟨s, e, s'⟩) =
      (s.savesNote e).elim (lastWrite table saved)
        (SaveNoteCall.write (lastWrite table saved)) := by
  cases ended : e.endsEditing with
  | none => simp [savesIn, savesNote, ended]
  | some commit =>
      cases current : s.currentPhotoId with
      | none => simp [savesIn, savesNote, ended, current]
      | some photoId =>
          simp only [savesIn, savesNote, ended, current, Option.map_some, Option.elim_some,
            lastWrite_snoc, SaveNoteCall.write, note_screenCall]
          rfl

section Steps

variable [DateFormatter] {s s' : App} {e : Event}

theorem upToDate_step (upToDate : UpToDate s) (ready : s.noteManager.Ready)
    (succeeds : CommitSucceeds ⟨s, e, s'⟩) (stepped : Stepped s e s') : UpToDate s' := by
  cases ended : e.endsEditing with
  | none =>
      have current := currentSelectedPhoto_of_stepped ended stepped
      intro photo isCurrent
      rw [noteManager_of_stepped ended stepped]
      cases selected : s.selects e with
      | some asset =>
          rw [selected] at current
          obtain rfl := Option.some.inj (isCurrent.symm.trans current)
          rfl
      | none =>
          rw [selected] at current
          obtain ⟨image, same⟩ := current
          rw [same] at isCurrent
          cases image with
          | none => exact upToDate photo isCurrent
          | some image =>
              obtain ⟨before, wasCurrent, rfl⟩ := Option.map_eq_some_iff.mp isCurrent
              exact upToDate before wasCurrent
  | some commit =>
      obtain ⟨realm, held, idle⟩ := ready
      cases stepped with
      | endedEditing same saved =>
          obtain rfl := Option.some.inj (ended.symm.trans same)
          intro photo isCurrent
          cases saved with
          | noPhoto unselected => exact absurd (unselected.symm.trans isCurrent) (by simp)
          | noRealm _ closed => simp [held] at closed
          | raised _ holds opened =>
              obtain rfl := Option.some.inj (held.symm.trans holds)
              exact absurd idle opened
          | committed selected holds _ =>
              obtain rfl := Option.some.inj isCurrent
              rw [NoteManager.getNote_eq]
              simp [NoteManager.row, Transaction.Versioned.current, savedTable]
          | threw _ _ _ => exact absurd ended succeeds
      | _ => cases ended

theorem readsBack_of_upToDate (upToDate : UpToDate s') (ready : s'.noteManager.Ready)
    (stepped : Stepped s e s') : ReadsBack ⟨s, e, s'⟩ := by
  rintro i image cells rfl photo current
  cases stepped with
  | endedEditing ended _ => cases ended
  | largeImageLoaded pending =>
      have kept := upToDate photo current
      rw [largeImageLoaded_noteManager] at kept ready
      dsimp only at current
      rw [largeImageLoaded_exposes, current, exposedNote_of_getNote kept,
        NoteManager.row_of_ready ready, largeImageLoaded_noteManager]

omit [DateFormatter] in
theorem keepsOthers_of_stored
    (stored : s'.noteManager.stored = (s.savesNote e).elim s.noteManager.stored
      (SaveNoteCall.write s.noteManager.stored)) : KeepsOthers ⟨s, e, s'⟩ := by
  intro photoId other
  rw [stored]
  cases saves : s.savesNote e with
  | none => rfl
  | some call =>
      obtain ⟨-, current, isCurrent, rfl⟩ := savesNote_eq_some_iff.mp saves
      refine Function.update_of_ne ?_ ..
      rintro rfl
      exact other isCurrent

/-- The table is the notebook, and the current photo is up to date. -/
structure Refines (table : NoteTable) (saved : List (String × Option Note)) (s : App) :
    Prop where
  ready : s.noteManager.Ready
  stored : s.noteManager.stored = lastWrite table saved
  upToDate : UpToDate s

theorem refines_step {table : NoteTable} {saved : List (String × Option Note)}
    (succeeds : CommitSucceeds ⟨s, e, s'⟩) (before : Refines table saved s)
    (taken : s.step e = some s') : Refines table (saves.observe saved ⟨s, e, s'⟩) s' := by
  obtain ⟨-, stepped⟩ := stepped_of_step taken
  obtain ⟨ready, stored⟩ := stored_of_stepped before.ready succeeds stepped
  refine ⟨ready, ?_, upToDate_step before.upToDate before.ready succeeds stepped⟩
  rw [stored, before.stored]
  exact (lastWrite_savesIn table saved s s' e).symm

/-- With the Realm open and every commit succeeding, the table is at any time the
last-write map of the saves, each record's flag says whether it has a text, and
every delivery exposes the record of the current photo. -/
theorem stored_eq_lastWrite {launch : Launch} {table : NoteTable}
    {history : List (Transition App Event)} (opened : launch.opened = some table)
    (truthful : ∀ photoId note, table photoId = some note → note.Truthful)
    (run : launch.Run history s) (succeed : ∀ t ∈ history, CommitSucceeds t) :
    s.noteManager.stored = lastWrite table (history.flatMap savesIn) ∧
      (∀ photoId note, s.noteManager.stored photoId = some note → note.Truthful) ∧
      ∀ t ∈ history, ReadsBack t ∧ KeepsOthers t := by
  have initial : Refines table saves.initial launch.app := by
    have noteManager : launch.app.noteManager = NoteManager.init (some table) := by
      rw [← opened]
      rfl
    refine ⟨?_, ?_, ?_⟩
    · rw [noteManager]
      exact NoteManager.ready_init table
    · rw [noteManager]
      rfl
    · intro photo isCurrent
      cases isCurrent
  have always := (Observer.along_const_iff saves).mpr succeed
  have refines : Refines table (saves.after history) s :=
    Run.invariant_along (C := fun _ => CommitSucceeds) initial
      (fun saved s e s' allowed before taken => refines_step allowed before taken) run always
  have stored := refines.stored
  rw [saves_after] at stored
  refine ⟨stored, ?_, (Observer.along_const_iff saves).mp ?_⟩
  · rw [stored]
    refine lastWrite_all (P := fun _ record => ∀ note : Note, record = some note → note.Truthful)
      truthful ?_
    intro saved member note isNote
    obtain ⟨t, -, inT⟩ := List.mem_flatMap.mp member
    exact truthful_of_mem_savesIn inT isNote
  · refine Run.along_of_invariant (C := fun _ => CommitSucceeds) initial
      (fun saved s e s' allowed before taken => refines_step allowed before taken) ?_ run always
    intro saved s e s' allowed before taken
    obtain ⟨-, stepped⟩ := stepped_of_step taken
    obtain ⟨ready, stored⟩ := stored_of_stepped before.ready allowed stepped
    exact ⟨readsBack_of_upToDate (upToDate_step before.upToDate before.ready allowed stepped)
      ready stepped, keepsOthers_of_stored stored⟩

end Steps

/-- The title of the third photo is saved, and another photo shown. -/
def saveThenShow : List Event :=
  startup ++ [.typeTitle "Sunset", .textFieldDidEndEditing .succeeds,
    .didSelectItemAt ⟨0⟩ .delivered ⟨.delivered, .delivered⟩,
    .largeImageLoaded 0 .delivered ⟨.delivered, .delivered⟩]

theorem stored_eq_lastWrite_saveThenShow :
    ∃ history s, Launch.threePhotos.app.Plays saveThenShow history s ∧
      s.noteManager.stored = lastWrite (fun _ => none)
        [("c", some (noteOf "c" "Sunset" Constants.defaultNoteDetail))] := by
  have plays : Launch.threePhotos.app.Plays saveThenShow _ _ := rfl
  obtain ⟨stored, -, -⟩ := @stored_eq_lastWrite DateFormatter.plain _ _ _ _ rfl
    (fun _ _ none => by cases none) plays.run (by decide)
  exact ⟨_, _, plays, stored⟩

end App

end Phonotes
