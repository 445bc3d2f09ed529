import Phonotes.Runs

/-!
What a save leaves behind and what it reports.

The success callback runs inside the write block, before the commit: a commit
that throws has already been reported as a success, its note and flag are
already shown, and its transaction stays open for good. The report itself is
lost when the Realm did not open or the selected row has no cached cell.
-/

namespace Phonotes

open Transaction TransitionSystem

namespace NoteTakingViewModel

/-! ### A save whose commit throws -/

/-- What a failed save should have left as it was: the table on disk, the note of
the current photo, the flags of the cached cells, and no open transaction. -/
structure KeptByFailedSave (before : NoteManager × NoteTakingViewModel)
    (after : NoteManager × NoteTakingViewModel) : Prop where
  stored : after.1.stored = before.1.stored
  note : after.2.currentSelectedPhoto.map Photo.note = before.2.currentSelectedPhoto.map Photo.note
  hasNote : ∀ row, (after.2.cellViewModels row).map NoteTakingPhotoCellViewModel.hasNote =
    (before.2.cellViewModels row).map NoteTakingPhotoCellViewModel.hasNote
  closed : ∀ realm, after.1.realm = some realm → realm.Idle

section FailedSave

variable {τ : Type*} {self : NoteTakingViewModel} {noteManager : NoteManager} {realm : Realm}
  {photo : Photo} (completion : Option String → NoteTakingViewModel → τ → τ) (state : τ)

/-- The table on disk is kept, and everything else is as after a save that
succeeded; the transaction is open. -/
theorem saveNote_throws (selected : self.currentSelectedPhoto = some photo)
    (held : noteManager.realm = some realm) (idle : realm.Idle) :
    let saved := self.saveNote noteManager .throws completion state
    saved.1.stored = noteManager.stored ∧ saved.2.1.1 = self.noteSaved photo ∧
      saved.1.realm = some ⟨realm.committed, some (self.savedTable photo realm)⟩ := by
  dsimp only
  rw [saveNote_of_throw completion state selected held idle]
  refine ⟨?_, rfl, rfl⟩
  funext photoId
  simp [NoteManager.stored, held]

/-- A save whose commit throws never leaves everything as it was: its write
transaction stays open. -/
theorem not_keptByFailedSave (selected : self.currentSelectedPhoto = some photo)
    (held : noteManager.realm = some realm) (idle : realm.Idle) :
    ¬ KeptByFailedSave (noteManager, self)
      ((self.saveNote noteManager .throws completion state).1,
        (self.saveNote noteManager .throws completion state).2.1.1) := by
  obtain ⟨-, -, opened⟩ := saveNote_throws completion state selected held idle
  intro kept
  have closed := kept.closed _ opened
  simp [Versioned.Idle] at closed

end FailedSave

/-- The third photo is shown with its cell on screen, and its title typed. -/
def titleTyped : App :=
  App.thirdShown.after [.cellForItemAt ⟨2⟩ .delivered, .typeTitle "Sunset"]

/-- The record and the photo whose save is about to fail. -/
theorem not_keptByFailedSave_titleTyped :
    ¬ KeptByFailedSave (titleTyped.noteManager, titleTyped.editedViewModel)
      ((titleTyped.editedViewModel.saveNote titleTyped.noteManager .throws
          (fun _ _ (_ : Unit) => ()) ()).1,
        (titleTyped.editedViewModel.saveNote titleTyped.noteManager .throws
          (fun _ _ (_ : Unit) => ()) ()).2.1.1) :=
  not_keptByFailedSave _ _ rfl rfl (by decide)

/-- There the note of the photo, which has no record, and the flag of its cell change as
well. -/
theorem exists_failed_save_not_undone :
    ∃ history, Launch.threePhotos.app.Plays (App.startup ++
        [.cellForItemAt ⟨2⟩ .delivered, .typeTitle "Sunset"]) history titleTyped ∧
      (titleTyped.editedViewModel.cellViewModels 2).map NoteTakingPhotoCellViewModel.hasNote =
        some false ∧
      ∀ after, after = titleTyped.editedViewModel.saveNote titleTyped.noteManager .throws
          (fun _ _ (_ : Unit) => ()) () →
        after.1.stored "c" = none ∧
        after.2.1.1.currentSelectedPhoto.map Photo.note = some (some ⟨"c"⟩) ∧
        (after.2.1.1.cellViewModels 2).map NoteTakingPhotoCellViewModel.hasNote = some true ∧
        ¬ KeptByFailedSave (titleTyped.noteManager, titleTyped.editedViewModel)
          (after.1, after.2.1.1) := by
  refine ⟨_, rfl, rfl, ?_⟩
  rintro after rfl
  refine ⟨rfl, rfl, rfl, ?_⟩
  intro kept
  exact absurd kept.note (by decide)

/-! ### What is reported -/

/-- A completion that keeps what it is called with. -/
def recordReport (errorMessage : Option String) (_ : NoteTakingViewModel)
    (reports : List (Option String)) : List (Option String) := reports ++ [errorMessage]

/-- The note of the current photo is on disk, and the transaction that wrote it
is over. -/
def NoteCommitted (self : NoteTakingViewModel) (noteManager : NoteManager) : Prop :=
  ∃ photo realm, self.currentSelectedPhoto = some photo ∧ noteManager.realm = some realm ∧
    realm.Idle ∧ realm.committed photo.photoId = some (self.savedNote photo)

/-- One call of `saveNote` reports once: `nil` if and only if the note has been
committed. -/
def ReportsOnce (self : NoteTakingViewModel) (noteManager : NoteManager)
    (commit : CommitOutcome) : Prop :=
  let saved := self.saveNote noteManager commit recordReport []
  ∃ report, saved.2.1.2 = [report] ∧ (report = none ↔ self.NoteCommitted saved.1)

section Reports

variable {self : NoteTakingViewModel} {noteManager : NoteManager} {realm : Realm} {photo : Photo}

theorem reportsOnce_of_no_photo (unselected : self.currentSelectedPhoto = none)
    (commit : CommitOutcome) : self.ReportsOnce noteManager commit := by
  unfold ReportsOnce
  rw [saveNote_of_no_photo _ _ unselected]
  refine ⟨some "Cannot find selected photo", rfl, iff_of_false (by simp) ?_⟩
  rintro ⟨photo, realm, selected, -⟩
  simp [unselected] at selected

theorem not_reportsOnce_of_no_realm (selected : self.currentSelectedPhoto = some photo)
    (closed : noteManager.realm = none) (commit : CommitOutcome) :
    ¬ self.ReportsOnce noteManager commit := by
  unfold ReportsOnce
  rw [saveNote_of_no_realm _ _ selected closed]
  rintro ⟨report, silent, -⟩
  cases silent

theorem not_reportsOnce_of_not_idle (selected : self.currentSelectedPhoto = some photo)
    (held : noteManager.realm = some realm) (opened : ¬ realm.Idle) (commit : CommitOutcome) :
    ¬ self.ReportsOnce noteManager commit := by
  unfold ReportsOnce
  rw [saveNote_of_not_idle _ _ selected held opened]
  rintro ⟨report, silent, -⟩
  cases silent

theorem reportsOnce_of_commit_iff (selected : self.currentSelectedPhoto = some photo)
    (held : noteManager.realm = some realm) (idle : realm.Idle) :
    self.ReportsOnce noteManager .succeeds ↔ self.SelectedCellCached := by
  unfold ReportsOnce
  rw [saveNote_of_commit _ _ selected held idle]
  by_cases cached : self.SelectedCellCached
  · refine iff_of_true ⟨none, ?_, iff_of_true rfl ?_⟩ cached
    · simp [reportSuccess, cached, recordReport]
    · exact ⟨photo, _, selected, rfl, rfl, Function.update_self ..⟩
  · refine iff_of_false ?_ cached
    rintro ⟨report, silent, -⟩
    simp [reportSuccess, cached] at silent

theorem reportsOnce_of_throw_iff (selected : self.currentSelectedPhoto = some photo)
    (held : noteManager.realm = some realm) (idle : realm.Idle) :
    self.ReportsOnce noteManager .throws ↔ ¬ self.SelectedCellCached := by
  unfold ReportsOnce
  rw [saveNote_of_throw _ _ selected held idle]
  by_cases cached : self.SelectedCellCached
  · refine iff_of_false ?_ (not_not.mpr cached)
    rintro ⟨report, twice, -⟩
    simp [reportSuccess, cached, recordReport] at twice
  · refine iff_of_true ⟨some "Error: Save Note Failed", ?_, iff_of_false (by simp) ?_⟩ cached
    · simp [reportSuccess, cached, recordReport]
    · rintro ⟨photo', realm', -, holds, closed, -⟩
      obtain rfl := Option.some.inj holds
      simp [Versioned.Idle] at closed

/-- A save is reported once and truthfully exactly when no photo is selected, or
the Realm is open without a transaction and the selected row's cell is cached
exactly when the commit goes through. -/
theorem reportsOnce_iff (self : NoteTakingViewModel) (noteManager : NoteManager)
    (commit : CommitOutcome) :
    self.ReportsOnce noteManager commit ↔
      self.currentSelectedPhoto = none ∨
        ∃ realm, noteManager.realm = some realm ∧ realm.Idle ∧
          (self.SelectedCellCached ↔ commit = .succeeds) := by
  cases selected : self.currentSelectedPhoto with
  | none => exact iff_of_true (reportsOnce_of_no_photo selected commit) (Or.inl rfl)
  | some photo =>
      simp only [reduceCtorEq, false_or]
      cases held : noteManager.realm with
      | none =>
          refine iff_of_false (not_reportsOnce_of_no_realm selected held commit) ?_
          rintro ⟨realm, holds, -⟩
          cases holds
      | some realm =>
          by_cases idle : realm.Idle
          · cases commit with
            | succeeds => simp [reportsOnce_of_commit_iff selected held idle, idle]
            | throws => simp [reportsOnce_of_throw_iff selected held idle, idle]
          · refine iff_of_false (not_reportsOnce_of_not_idle selected held idle commit) ?_
            rintro ⟨realm', holds, closed, -⟩
            obtain rfl := Option.some.inj holds
            exact idle closed

end Reports

/-- The same start on a device where the Realm does not open. -/
def realmClosed : App := ({ Launch.threePhotos with opened := none } : Launch).app.after
  (App.startup ++ [.typeTitle "Sunset"])

/-- Nothing is saved there, and nothing reported. -/
theorem exists_save_not_reported :
    ∃ history, ({ Launch.threePhotos with opened := none } : Launch).app.Plays
        (App.startup ++ [.typeTitle "Sunset"]) history realmClosed ∧
      (realmClosed.editedViewModel.saveNote realmClosed.noteManager .succeeds recordReport
        []).2.1.2 = [] ∧
      ¬ realmClosed.editedViewModel.ReportsOnce realmClosed.noteManager .succeeds := by
  refine ⟨_, rfl, rfl, ?_⟩
  rintro ⟨report, silent, -⟩
  cases silent

end NoteTakingViewModel

namespace App

/-! ### After a commit that threw -/

/-- A write transaction was left open. -/
def LeftOpen (s : App) : Prop := ∃ realm, s.noteManager.realm = some realm ∧ ¬ realm.Idle

variable [DateFormatter] {s s' : App} {e : Event}

/-- No callback closes the transaction, and what is on disk stays. -/
theorem leftOpen_step (opened : LeftOpen s) (taken : s.step e = some s') :
    LeftOpen s' ∧ s'.noteManager.stored = s.noteManager.stored := by
  obtain ⟨-, stepped⟩ := stepped_of_step taken
  obtain ⟨realm, held, inside⟩ := opened
  cases ended : e.endsEditing with
  | none =>
      have same := noteManager_of_stepped ended stepped
      exact ⟨⟨realm, same ▸ held, inside⟩, congrArg NoteManager.stored same⟩
  | some commit =>
      cases stepped with
      | endedEditing _ saved =>
          cases saved with
          | noPhoto _ => exact ⟨⟨realm, held, inside⟩, rfl⟩
          | noRealm _ closed => simp [held] at closed
          | raised _ holds opened =>
              refine ⟨⟨_, rfl, opened⟩, ?_⟩
              funext photoId
              simp [NoteManager.stored, holds]
          | committed _ holds idle =>
              obtain rfl := Option.some.inj (held.symm.trans holds)
              exact absurd idle inside
          | threw _ holds idle =>
              obtain rfl := Option.some.inj (held.symm.trans holds)
              exact absurd idle inside
      | _ => cases ended

/-- Once a commit has thrown, no note is stored for the rest of the run. -/
theorem stored_frozen {history : List (Transition App Event)} (opened : LeftOpen s)
    (run : Run App.step s history s') :
    LeftOpen s' ∧ s'.noteManager.stored = s.noteManager.stored := by
  refine Run.always (P := fun reached => LeftOpen reached ∧
    reached.noteManager.stored = s.noteManager.stored) ⟨opened, rfl⟩ ?_ run
  rintro reached e next ⟨stillOpen, same⟩ taken
  obtain ⟨open', kept⟩ := leftOpen_step stillOpen taken
  exact ⟨open', kept.trans same⟩

end App

end Phonotes
