import Phonotes.Notebook
import Phonotes.SaveReport

/-!
The placeholder of the detail view.

A note is written with the placeholder erased, and shown with it put back when
the note is empty. So the screen and the records are tied as the two sides of
`InBand.keep` and `InBand.present`, with the empty string for blank: what a save
stores is `keep` of the texts on screen, and what a delivery shows is `present`
of the texts stored.
-/

namespace Phonotes

open TransitionSystem NoteTakingViewModel

/-! ### Texts on screen and in records -/

/-- The title and detail that a save stores for the ones on screen. -/
def keptTexts : String × String → String × String :=
  InBand.keep "" Constants.defaultNoteDetail

/-- The title and detail that are shown for the ones stored. -/
def presentedTexts : String × String → String × String :=
  InBand.present "" Constants.defaultNoteDetail

theorem blank_ne_placeholder : "" ≠ Constants.defaultNoteDetail := by decide

namespace Note

/-- The texts of a record; `nil` counts as the empty string. -/
def texts (self : Note) : String × String := (self.noteTitle.getD "", self.noteDetail.getD "")

/-- Written by this app: what some view model saves for some photo. -/
def WrittenByApp (self : Note) : Prop :=
  ∃ (viewModel : NoteTakingViewModel) (photo : Photo), self = viewModel.savedNote photo

/-- The flag says whether there is a text, and the placeholder is not stored. -/
structure Legible (note : Note) : Prop where
  truthful : note.Truthful
  real : note.texts.2 ≠ Constants.defaultNoteDetail

theorem truthful_iff {self : Note} :
    self.Truthful ↔ (self.hasNote = true ↔ self.texts ≠ ("", "")) := by
  simp only [Truthful, texts, ne_eq, Prod.mk.injEq, not_and_or]

theorem truthful_newNote (photoId : String) (noteTitle noteDetail : Option String) :
    (NoteManager.newNote photoId noteTitle noteDetail).Truthful := by
  have empty (text : Option String) :
      NoteManager.isEmptyOrNil text = true ↔ text.getD "" = "" := by
    cases text with
    | none => simp [NoteManager.isEmptyOrNil]
    | some text => simp [NoteManager.isEmptyOrNil]
  simp only [Truthful, NoteManager.newNote, Bool.not_eq_true', ← Bool.not_eq_true,
    Bool.and_eq_true, empty, ne_eq, not_and_or]

theorem WrittenByApp.legible {self : Note} (written : self.WrittenByApp) : self.Legible := by
  obtain ⟨viewModel, photo, rfl⟩ := written
  refine ⟨truthful_newNote _ _ _, ?_⟩
  simp only [texts, savedNote, NoteManager.newNote, noteDetailText]
  split_ifs with isPlaceholder
  · exact blank_ne_placeholder
  · cases detail : viewModel.noteDetail with
    | none => exact blank_ne_placeholder
    | some text =>
        intro same
        rw [Option.getD_some] at same
        exact isPlaceholder (by rw [detail, same])

/-- What a stored record says; an absent one says what an empty note does. -/
def content : Option Note → (String × String) × Bool
  | some note => (note.texts, note.hasNote)
  | none => (("", ""), false)

/-- A truthful record is shown with the placeholder in the place of an empty note. -/
theorem presented_content {record : Option Note}
    (truthful : ∀ note, record = some note → note.Truthful) :
    ((NoteManager.shownNote record).1.getD "", (NoteManager.shownNote record).2.getD "") =
      presentedTexts (content record).1 := by
  cases record with
  | none => rfl
  | some note =>
      have flag := truthful_iff.mp (truthful note rfl)
      cases hasNote : note.hasNote with
      | true =>
          have full := flag.mp hasNote
          simp only [NoteManager.shownNote, hasNote, if_true, content, presentedTexts,
            InBand.present, full, if_false]
          rfl
      | false =>
          have empty : note.texts = ("", "") := by
            by_contra full
            simp [flag.mpr full] at hasNote
          simp [NoteManager.shownNote, hasNote, content, presentedTexts, InBand.present, empty]

end Note

/-- The user begins or ends an edit and types nothing, and the commit goes through;
or UIKit asks for a cell or lays out the views on the way. -/
def Event.editsUntyped : Event → Bool
  | .textFieldDidEndEditing .succeeds => true
  | .textViewShouldBeginEditing => true
  | .textViewShouldEndEditing => true
  | .textViewDidEndEditing .succeeds => true
  | .cellForItemAt _ _ => true
  | .viewWillLayoutSubviews _ => true
  | _ => false

namespace App

/-- The texts of the title field and the detail view. -/
def screenTexts (s : App) : String × String :=
  (s.view.noteTitleTextField, s.view.noteDetailTextView)

/-- The record of a photo for which the texts on screen were saved. -/
theorem content_noteOf (s : App) (photoId : String) :
    Note.content (some (noteOf photoId s.view.noteTitleTextField s.view.noteDetailTextView)) =
      (keptTexts s.screenTexts, decide (keptTexts s.screenTexts ≠ ("", ""))) := by
  have flag := Note.truthful_iff.mp
    (truthful_noteOf photoId s.view.noteTitleTextField s.view.noteDetailTextView)
  refine Prod.ext rfl ?_
  rw [Bool.eq_iff_iff, decide_eq_true_iff]
  exact flag

section Steps

variable [DateFormatter] {s s' : App} {e : Event}

/-- A delivery shows the note of the current photo. -/
theorem screenTexts_of_delivered {i : Nat} {image : ImageReply} {cells : CellReplies}
    (stepped : Stepped s (.largeImageLoaded i image cells) s') :
    s'.screenTexts =
      ((exposedNote s'.noteManager s'.viewModel.currentSelectedPhoto).1.getD "",
        (exposedNote s'.noteManager s'.viewModel.currentSelectedPhoto).2.getD "") := by
  cases stepped with
  | endedEditing ended _ => cases ended
  | largeImageLoaded pending =>
      rw [screenTexts, largeImageLoaded_view_eq, largeImageLoaded_noteManager,
        largeImageLoaded_currentSelectedPhoto, loadedViewModel, largeImageLoaded_eq]
      rfl

/-- When the note that the current photo keeps is the stored one, it is presented. -/
theorem presents_of_upToDate {i : Nat} {image : ImageReply} {cells : CellReplies}
    (stepped : Stepped s (.largeImageLoaded i image cells) s') (upToDate : UpToDate s')
    (ready : s'.noteManager.Ready) {photoId : String} (current : s'.currentPhotoId = some photoId)
    (truthful : ∀ note, s'.noteManager.stored photoId = some note → note.Truthful) :
    s'.screenTexts = presentedTexts (Note.content (s'.noteManager.stored photoId)).1 := by
  obtain ⟨photo, isCurrent, rfl⟩ := Option.map_eq_some_iff.mp current
  rw [screenTexts_of_delivered stepped, isCurrent,
    exposedNote_of_getNote (upToDate photo isCurrent), NoteManager.row_of_ready ready]
  exact Note.presented_content truthful

end Steps

/-! ### A saved note, shown again -/

section ShownAgain

variable [DateFormatter]

/-- The record of the current photo after a save that commits. -/
theorem stored_of_saved {s s' : App} {e : Event} {photoId : String}
    (ready : s.noteManager.Ready) (current : s.currentPhotoId = some photoId)
    (ended : e.endsEditing = some .succeeds) (stepped : Stepped s e s') :
    s'.noteManager.Ready ∧ s'.noteManager.stored photoId =
      some (noteOf photoId s.view.noteTitleTextField s.view.noteDetailTextView) := by
  have succeeds : CommitSucceeds ⟨s, e, s'⟩ := by
    intro throws
    exact absurd (ended.symm.trans throws) (by simp)
  obtain ⟨ready', stored⟩ := stored_of_stepped ready succeeds stepped
  have saves : s.savesNote e = some (s.screenCall photoId) := by
    simp only [savesNote, ended, current, Option.map_some]
  refine ⟨ready', ?_⟩
  rw [stored, saves, Option.elim_some, SaveNoteCall.write, note_screenCall]
  exact Function.update_self ..

/-- Without an end of editing the note manager stays as it is. -/
theorem noteManager_of_unedited {s s' : App} {history : List (Transition App Event)}
    (run : Run App.step s history s') (unedited : ∀ t ∈ history, t.event.endsEditing = none) :
    s'.noteManager = s.noteManager := by
  refine Run.invariant (P := fun reached => reached.noteManager = s.noteManager)
    (C := fun t => t.event.endsEditing = none) rfl ?_ run unedited
  intro reached e next noEdit same taken
  rw [noteManager_of_stepped noEdit (stepped_of_step taken).2, same]

/-- A photo that becomes current is up to date. -/
theorem upToDate_of_selects {s s' : App} {e : Event} {asset : PHAsset}
    (selects : s.selects e = some asset) (stepped : Stepped s e s') :
    s'.noteManager = s.noteManager ∧ s'.currentPhotoId = some asset.localIdentifier ∧
      UpToDate s' := by
  have unedited : e.endsEditing = none := by
    cases ended : e.endsEditing with
    | none => rfl
    | some commit =>
        rw [selects_of_endsEditing ended] at selects
        cases selects
  have same := noteManager_of_stepped unedited stepped
  have current := currentSelectedPhoto_of_stepped unedited stepped
  rw [selects] at current
  refine ⟨same, ?_, ?_⟩
  · rw [currentPhotoId, current]
    rfl
  · intro photo isCurrent
    obtain rfl := Option.some.inj (isCurrent.symm.trans current)
    rw [same]
    rfl

/-- The texts on screen are saved for the current photo; later, with no edit ended
in between, that photo is selected again and a load delivered. Then the screen shows
the same texts exactly when the placeholder was there only under an empty title, and
the two texts were not both empty. -/
theorem showsSaved_iff {saving saved revisited selected shown : App} {e tap : Event}
    {photoId : String} {away : List (Transition App Event)} {asset : PHAsset} {i : Nat}
    {image : ImageReply} {cells : CellReplies} (ready : saving.noteManager.Ready)
    (current : saving.currentPhotoId = some photoId) (ended : e.endsEditing = some .succeeds)
    (saves : saving.step e = some saved) (elsewhere : Run App.step saved away revisited)
    (unedited : ∀ t ∈ away, t.event.endsEditing = none)
    (again : revisited.selects tap = some asset) (same : asset.localIdentifier = photoId)
    (taps : revisited.step tap = some selected)
    (delivered : selected.step (.largeImageLoaded i image cells) = some shown) :
    shown.screenTexts = saving.screenTexts ↔
      (saving.view.noteDetailTextView = Constants.defaultNoteDetail →
        saving.view.noteTitleTextField = "") ∧ saving.screenTexts ≠ ("", "") := by
  obtain ⟨readySaved, stored⟩ := stored_of_saved ready current ended (stepped_of_step saves).2
  have kept := noteManager_of_unedited elsewhere unedited
  obtain ⟨keptTap, isSelected, upToDate⟩ := upToDate_of_selects again (stepped_of_step taps).2
  have delivery := (stepped_of_step delivered).2
  have keptLoad : shown.noteManager = selected.noteManager := noteManager_of_stepped rfl delivery
  have manager : shown.noteManager = saved.noteManager := by rw [keptLoad, keptTap, kept]
  have readyShown : shown.noteManager.Ready := manager ▸ readySaved
  have isShown : shown.currentPhotoId = some photoId := by
    rw [currentPhotoId_of_stepped delivery, isSelected, same]
    rfl
  have upToDateShown : UpToDate shown :=
    upToDate_step upToDate (keptLoad ▸ readyShown) (by intro throws; cases throws) delivery
  rw [← manager] at stored
  have presents := presents_of_upToDate delivery upToDateShown readyShown isShown
    (by
      intro note isStored
      obtain rfl := Option.some.inj (stored.symm.trans isStored)
      exact truthful_noteOf _ _ _)
  rw [stored, content_noteOf] at presents
  rw [presents]
  exact InBand.present_keep_iff blank_ne_placeholder

end ShownAgain

/-- The first photo is shown, then the third again. -/
def awayAndBack : List Event :=
  [.didSelectItemAt ⟨0⟩ .delivered ⟨.delivered, .delivered⟩,
    .largeImageLoaded 0 .delivered ⟨.delivered, .delivered⟩,
    .didSelectItemAt ⟨2⟩ .delivered ⟨.delivered, .delivered⟩,
    .largeImageLoaded 0 .delivered ⟨.delivered, .delivered⟩]

theorem showsSaved_iff_bothTyped :
    ∃ history s t, thirdShown.Plays (.typeTitle "Sunset" :: .typeDetail "Golden hour" ::
        .textFieldDidEndEditing .succeeds :: awayAndBack) history s ∧
      history[2]? = some t ∧ t.before.screenTexts = ("Sunset", "Golden hour") ∧
      s.screenTexts = t.before.screenTexts := by
  have plays : thirdShown.Plays (.typeTitle "Sunset" :: .typeDetail "Golden hour" ::
      .textFieldDidEndEditing .succeeds :: awayAndBack) _ _ := rfl
  have saves := plays.run.step_of_mem (List.mem_of_getElem? (i := 2) rfl)
  have tapsFirst := plays.run.step_of_mem (List.mem_of_getElem? (i := 3) rfl)
  have loadsFirst := plays.run.step_of_mem (List.mem_of_getElem? (i := 4) rfl)
  have tapsThird := plays.run.step_of_mem (List.mem_of_getElem? (i := 5) rfl)
  have loadsThird := plays.run.step_of_mem (List.mem_of_getElem? (i := 6) rfl)
  refine ⟨_, _, _, plays, rfl, rfl, ?_⟩
  exact (@showsSaved_iff DateFormatter.plain _ _ _ _ _ _ _ "c" _ ⟨"c", none⟩ 0 .delivered
    ⟨.delivered, .delivered⟩ (by exact NoteManager.ready_init _) rfl rfl saves
    ((Run.nil.snoc tapsFirst).snoc loadsFirst) (by decide) rfl rfl tapsThird
    loadsThird).mpr ⟨by decide, by decide⟩

/-- With a title and no detail, the placeholder that was on screen does not come back. -/
theorem exists_placeholder_lost :
    ∃ history s t, Launch.threePhotos.app.Plays
        (startup ++ .typeTitle "Sunset" :: .textFieldDidEndEditing .succeeds :: awayAndBack)
        history s ∧
      history[3]? = some t ∧ t.event = .textFieldDidEndEditing .succeeds ∧
      t.before.currentPhotoId = some "c" ∧ s.currentPhotoId = some "c" ∧
      t.before.screenTexts = ("Sunset", Constants.defaultNoteDetail) ∧
      s.screenTexts = ("Sunset", "") := by
  have plays : Launch.threePhotos.app.Plays
      (startup ++ .typeTitle "Sunset" :: .textFieldDidEndEditing .succeeds :: awayAndBack)
      _ _ := rfl
  exact ⟨_, _, _, plays, rfl, rfl, rfl, rfl, rfl, rfl⟩

/-! ### Editing without typing -/

/-- The records can be read back: no transaction is open, the current photo is up
to date, and every record is legible. -/
structure Readable (s : App) : Prop where
  ready : s.noteManager.Ready
  upToDate : UpToDate s
  legible : ∀ photoId note, s.noteManager.stored photoId = some note → note.Legible

theorem legible_noteOf (photoId title detail : String) : (noteOf photoId title detail).Legible where
  truthful := truthful_noteOf photoId title detail
  real := InBand.erase_ne_placeholder blank_ne_placeholder detail

section Untyped

variable [DateFormatter] {s s' : App} {e : Event}

theorem readable_step (readable : Readable s) (succeeds : CommitSucceeds ⟨s, e, s'⟩)
    (stepped : Stepped s e s') : Readable s' := by
  obtain ⟨ready, stored⟩ := stored_of_stepped readable.ready succeeds stepped
  refine ⟨ready, upToDate_step readable.upToDate readable.ready succeeds stepped, ?_⟩
  intro photoId note isStored
  rw [stored] at isStored
  cases saves : s.savesNote e with
  | none =>
      rw [saves] at isStored
      exact readable.legible photoId note isStored
  | some call =>
      obtain ⟨-, current, -, rfl⟩ := savesNote_eq_some_iff.mp saves
      rw [saves, Option.elim_some, SaveNoteCall.write, note_screenCall,
        Function.update_apply] at isStored
      split_ifs at isStored with isCurrent
      · obtain rfl := Option.some.inj isStored
        exact legible_noteOf _ _ _
      · exact readable.legible photoId note isStored

/-- Either the records can be read back, or a commit has thrown and they are frozen. -/
theorem readable_or_leftOpen_step (before : Readable s ∨ LeftOpen s)
    (taken : s.step e = some s') : Readable s' ∨ LeftOpen s' := by
  obtain ⟨-, stepped⟩ := stepped_of_step taken
  rcases before with readable | opened
  · by_cases succeeds : CommitSucceeds ⟨s, e, s'⟩
    · exact Or.inl (readable_step readable succeeds stepped)
    · have ended : e.endsEditing = some .throws := not_not.mp succeeds
      obtain ⟨realm, held, idle⟩ := readable.ready
      cases stepped with
      | endedEditing same saved =>
          obtain rfl := Option.some.inj (ended.symm.trans same)
          cases saved with
          | noPhoto unselected =>
              exact Or.inl ⟨readable.ready, readable.upToDate, readable.legible⟩
          | noRealm _ closed => simp [held] at closed
          | raised _ holds opened => exact Or.inr ⟨_, rfl, opened⟩
          | threw _ _ _ => exact Or.inr ⟨_, rfl, by simp [Transaction.Versioned.Idle]⟩
      | _ => cases ended
  · exact Or.inr (leftOpen_step opened taken).1

/-- The photo that is current, what its record says, and that the texts on screen
would say the same. -/
structure Shows (photoId : String) (content : (String × String) × Bool) (s : App) : Prop where
  ready : s.noteManager.Ready
  current : s.currentPhotoId = some photoId
  stored : Note.content (s.noteManager.stored photoId) = content
  screen : keptTexts s.screenTexts = content.1
  flag : content.2 = decide (content.1 ≠ ("", ""))

/-- Such an event selects nothing and leaves what the screen holds. -/
theorem Shows.screen_step {photoId : String} {content : (String × String) × Bool}
    (shows : Shows photoId content s) (untyped : e.editsUntyped = true) (stepped : Stepped s e s') :
    s'.currentPhotoId = some photoId ∧ keptTexts s'.screenTexts = content.1 := by
  have unselected : s.selects e = none := by
    cases e <;> first | rfl | cases untyped
  have unpopulated : s.populates e = false := by
    cases e <;> first | rfl | cases untyped
  have noTitle : s.titleText e = s.view.noteTitleTextField := by
    cases e <;> first | rfl | cases untyped
  have noDetail : ∀ text, e ≠ .typeDetail text := by
    rintro text rfl
    cases untyped
  obtain ⟨title, detail⟩ := texts_of_stepped unpopulated stepped
  refine ⟨?_, ?_⟩
  · rw [currentPhotoId_of_stepped stepped, unselected]
    exact shows.current
  · rw [← shows.screen]
    refine Prod.ext (title.trans noTitle) ?_
    exact (congrArg storedDetail detail).trans (storedDetail_detailText noDetail)

/-- Its save, if it makes one, stores what is stored already. -/
theorem shows_step {photoId : String} {content : (String × String) × Bool}
    (shows : Shows photoId content s) (untyped : e.editsUntyped = true) (stepped : Stepped s e s') :
    Shows photoId content s' ∧ KeepsOthers ⟨s, e, s'⟩ := by
  have succeeds : CommitSucceeds ⟨s, e, s'⟩ := by
    intro throws
    cases e <;> cases throws <;> cases untyped
  obtain ⟨ready, stored⟩ := stored_of_stepped shows.ready succeeds stepped
  obtain ⟨current, screen⟩ := shows.screen_step untyped stepped
  refine ⟨⟨ready, current, ?_, screen, shows.flag⟩, keepsOthers_of_stored stored⟩
  rw [stored]
  cases saves : s.savesNote e with
  | none => exact shows.stored
  | some call =>
      obtain ⟨-, id, isCurrent, rfl⟩ := savesNote_eq_some_iff.mp saves
      obtain rfl : photoId = id := Option.some.inj (shows.current.symm.trans isCurrent)
      rw [Option.elim_some, SaveNoteCall.write, note_screenCall]
      have updated := Function.update_self photoId
        (some (noteOf photoId s.view.noteTitleTextField s.view.noteDetailTextView))
        s.noteManager.stored
      refine (congrArg Note.content updated).trans ?_
      rw [content_noteOf, shows.screen, ← shows.flag]

/-- So beginning and ending edits changes neither that record nor any other. -/
theorem shows_of_run {photoId : String} {content : (String × String) × Bool}
    {history : List (Transition App Event)} (shows : Shows photoId content s)
    (run : Run App.step s history s') (untyped : ∀ t ∈ history, t.event.editsUntyped = true) :
    Shows photoId content s' ∧ ∀ other, other ≠ photoId →
      s'.noteManager.stored other = s.noteManager.stored other := by
  refine Run.invariant (P := fun reached => Shows photoId content reached ∧
      ∀ other, other ≠ photoId →
        reached.noteManager.stored other = s.noteManager.stored other)
    (C := fun t => t.event.editsUntyped = true) ⟨shows, fun _ _ => rfl⟩ ?_ run untyped
  rintro reached e next untyped ⟨shows, others⟩ taken
  obtain ⟨shows', keeps⟩ := shows_step shows untyped (stepped_of_step taken).2
  refine ⟨shows', ?_⟩
  intro other apart
  have unsaved : reached.currentPhotoId ≠ some other := by
    rw [shows.current]
    intro same
    exact apart (Option.some.inj same).symm
  exact (keeps other unsaved).trans (others other apart)

/-- A delivery to an app whose records can be read back shows the current photo's. -/
theorem shows_of_delivered {i : Nat} {image : ImageReply} {cells : CellReplies}
    {photoId : String} (readable : Readable s')
    (stepped : Stepped s (.largeImageLoaded i image cells) s')
    (current : s'.currentPhotoId = some photoId) :
    Shows photoId (Note.content (s'.noteManager.stored photoId)) s' := by
  have legible := readable.legible photoId
  refine ⟨readable.ready, current, rfl, ?_, ?_⟩
  · rw [presents_of_upToDate stepped readable.upToDate readable.ready current
      fun note isStored => (legible note isStored).truthful]
    apply InBand.keep_present
    cases stored : s'.noteManager.stored photoId with
    | none => exact blank_ne_placeholder
    | some note => exact (legible note stored).real
  · cases stored : s'.noteManager.stored photoId with
    | none => rfl
    | some note =>
        rw [Bool.eq_iff_iff, decide_eq_true_iff]
        exact Note.truthful_iff.mp (legible note stored).truthful

omit [DateFormatter] in
/-- The records of the app's own store can be read back at launch. -/
theorem readable_app {launch : Launch} {table : NoteTable} (opened : launch.opened = some table)
    (written : ∀ photoId note, table photoId = some note → note.WrittenByApp) :
    Readable launch.app := by
  have noteManager : launch.app.noteManager = NoteManager.init (some table) := by
    rw [← opened]
    rfl
  refine ⟨?_, ?_, ?_⟩
  · rw [noteManager]
    exact NoteManager.ready_init table
  · intro photo isCurrent
    cases isCurrent
  · intro photoId note isStored
    rw [noteManager] at isStored
    exact (written photoId note isStored).legible

/-- With a store that the app wrote, once a load is delivered, beginning and ending
edits without typing changes neither what the current photo's record says nor any
other record. -/
theorem content_of_editsUntyped {launch : Launch} {table : NoteTable}
    (opened : launch.opened = some table)
    (written : ∀ photoId note, table photoId = some note → note.WrittenByApp)
    {earlier edits : List (Transition App Event)} {loading shown : App}
    (run : launch.Run earlier loading) {i : Nat} {image : ImageReply} {cells : CellReplies}
    (delivered : loading.step (.largeImageLoaded i image cells) = some shown)
    {photoId : String} (current : shown.currentPhotoId = some photoId)
    (edited : Run App.step shown edits s) (untyped : ∀ t ∈ edits, t.event.editsUntyped = true) :
    Note.content (s.noteManager.stored photoId) =
        Note.content (shown.noteManager.stored photoId) ∧
      ∀ other, other ≠ photoId →
        s.noteManager.stored other = shown.noteManager.stored other := by
  have reached : Readable loading ∨ LeftOpen loading :=
    Run.always (P := fun reached => Readable reached ∨ LeftOpen reached)
      (Or.inl (readable_app opened written))
      (fun _ _ _ before taken => readable_or_leftOpen_step before taken) run
  rcases readable_or_leftOpen_step reached delivered with readable | frozen
  · have shows := shows_of_delivered readable (stepped_of_step delivered).2 current
    obtain ⟨shows', others⟩ := shows_of_run shows edited untyped
    exact ⟨shows'.stored, others⟩
  · have same := (stored_frozen frozen edited).2
    rw [same]
    exact ⟨rfl, fun _ _ => rfl⟩

end Untyped

/-- The record that saving a title alone leaves for the third photo. -/
def sunset : Note :=
  { NoteTakingViewModel.init none with
    noteTitle := some "Sunset"
    noteDetail := some Constants.defaultNoteDetail }.savedNote
      ⟨"c", .catalog "BlurryImage1", none, ⟨"c", none⟩, none⟩

/-- The table that holds it alone. -/
def sunsetTable : NoteTable := fun photoId => if photoId = "c" then some sunset else none

theorem writtenByApp_sunsetTable (photoId : String) (note : Note)
    (isStored : sunsetTable photoId = some note) : note.WrittenByApp := by
  unfold sunsetTable at isStored
  split_ifs at isStored
  obtain rfl := Option.some.inj isStored
  exact ⟨_, _, rfl⟩

/-- The app on that store, with the load of the third photo pending. -/
def sunsetLoading : App :=
  { Launch.threePhotos with opened := some sunsetTable : Launch }.app.after (startup.take 1)

/-- The detail of the third photo is touched, and then its title. -/
def touchBoth : List Event :=
  [.textViewShouldBeginEditing, .textViewShouldEndEditing, .textViewDidEndEditing .succeeds,
    .textFieldDidEndEditing .succeeds]

theorem content_of_editsUntyped_touchBoth :
    ∃ edits s, (sunsetLoading.after (startup.drop 1)).Plays touchBoth edits s ∧
      Note.content (s.noteManager.stored "c") = (("Sunset", ""), true) := by
  have plays : { Launch.threePhotos with opened := some sunsetTable : Launch }.app.Plays
      (startup.take 1) _ sunsetLoading := rfl
  have edited : (sunsetLoading.after (startup.drop 1)).Plays touchBoth _ _ := rfl
  refine ⟨_, _, edited, ?_⟩
  exact (@content_of_editsUntyped DateFormatter.plain _ _ sunsetTable rfl
    writtenByApp_sunsetTable _ _ _ _ plays.run 0 .delivered ⟨.delivered, .delivered⟩ rfl "c" rfl
    edited.run (by decide)).1

end App

end Phonotes
