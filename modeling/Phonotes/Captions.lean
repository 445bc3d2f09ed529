import Phonotes.Editing
import Phonotes.Library.KeyedEditor
import Phonotes.Library.Simulation
import Phonotes.Placeholder

/-!
The app as an editor of captions.

`editor` forgets everything but the texts: what each photo's record says, which
photo is current, the texts on screen and the ones `populateViewWithSelectedPhotoInfo`
would put there. While commits succeed, every callback is a list of `KeyedEditor`
actions on it, so what holds of that editor holds of the app, over runs with any
overlap of taps and deliveries.
-/

namespace Phonotes

open TransitionSystem KeyedEditor NoteTakingViewModel

/-- Records and texts on screen as a store and its drafts. -/
def captionCodec : Codec (String × String) (String × String) where
  blank := ("", "")
  present := presentedTexts
  keep := keptTexts

/-- What the records of a table say, by photo. -/
def NoteTable.captions (table : NoteTable) (photoId : String) : String × String :=
  (Note.content (table photoId)).1

/-- The user types into one of the two fields. -/
def Event.types : Event → Bool
  | .typeTitle _ => true
  | .typeDetail _ => true
  | _ => false

namespace App

/-- The texts that the view model exposes to the screen. -/
def exposedTexts (s : App) : String × String :=
  (s.viewModel.noteTitle.getD "", s.viewModel.noteDetail.getD "")

def editor (s : App) : Editor String (String × String) (String × String) where
  store := s.noteManager.stored.captions
  chosen := s.currentPhotoId
  draft := s.screenTexts
  exposed := s.exposedTexts

/-- What a callback does to the captions. -/
def actions (s : App) (e : Event) : List (Action String (String × String)) :=
  match e with
  | .largeImageLoaded _ _ _ => [.load]
  | .typeTitle _ => [.edit (s.titleText e, s.detailText e)]
  | .typeDetail _ => [.edit (s.titleText e, s.detailText e)]
  | .textViewShouldBeginEditing => [.edit (s.titleText e, s.detailText e)]
  | .textViewShouldEndEditing => [.edit (s.titleText e, s.detailText e)]
  | .textFieldDidEndEditing _ => [.save]
  | .textViewDidEndEditing _ => [.save]
  | e =>
      if s.populates e then [.revert]
      else ((s.selects e).map fun asset => .choose asset.localIdentifier).toList

section Steps

variable [DateFormatter] {s s' : App} {e : Event}

/-! ### The exposed texts -/

/-- Only a delivery and an end of editing expose other texts. -/
theorem exposedTexts_of_stepped (unedited : e.endsEditing = none)
    (undelivered : ∀ i image cells, e ≠ .largeImageLoaded i image cells)
    (stepped : Stepped s e s') : s'.exposedTexts = s.exposedTexts := by
  cases stepped with
  | firstUnselectable _ =>
      rw [withPhotoManager_eq]
      rfl
  | firstUnfetched _ =>
      rw [withPhotoManager_eq]
      rfl
  | firstSelected _ _ =>
      rw [withPhotoManager_eq]
      rfl
  | @tapUnselectable indexPath _ cells _ _ =>
      rw [exposedTexts, (didSelectCompletion_redrawn s indexPath cells).frame]
      rfl
  | largeImageLoaded _ => exact absurd rfl (undelivered _ _ _)
  | cellForItemAt =>
      rw [exposedTexts, (cellForItemAt_redrawn ..).frame]
      rfl
  | endedEditing ended _ => cases unedited.symm.trans ended
  | beganEditing => rw [textViewShouldBeginEditing_eq, exposedTexts, exposedTexts]
  | willEndEditing => rw [textViewShouldEndEditing_eq, exposedTexts, exposedTexts]
  | _ => rfl

/-- An end of editing exposes the texts on screen. -/
theorem exposedTexts_of_endsEditing {commit : CommitOutcome} (ended : e.endsEditing = some commit)
    (stepped : Stepped s e s') : s'.exposedTexts = s.screenTexts := by
  cases stepped with
  | endedEditing _ saved => cases saved <;> rfl
  | _ => cases ended

/-- A delivery puts the texts that it exposes on screen. -/
theorem exposedTexts_of_load {i : Nat} {image : ImageReply} {cells : CellReplies}
    (stepped : Stepped s (.largeImageLoaded i image cells) s') :
    s'.exposedTexts = s'.screenTexts := by
  cases stepped with
  | endedEditing ended _ => cases ended
  | @largeImageLoaded _ load _ _ _ =>
      have redrawn := largeImageLoaded_redrawn
        { s with pendingLoads := s.pendingLoads.eraseIdx i } load image cells
      rw [exposedTexts, screenTexts, largeImageLoaded_view_eq, redrawn.frame]
      rfl

/-- A selection reported as done although its row has no asset puts the exposed texts
back on screen. -/
theorem screenTexts_of_populates (populates : s.populates e = true)
    (undelivered : ∀ i image cells, e ≠ .largeImageLoaded i image cells)
    (stepped : Stepped s e s') : s'.screenTexts = s.exposedTexts := by
  cases stepped with
  | firstUnselectable _ =>
      rw [withPhotoManager_eq]
      rfl
  | firstUnfetched found => simp [App.populates, found] at populates
  | firstSelected _ found => simp [App.populates, found] at populates
  | tapIgnored shown => simp [App.populates, shown] at populates
  | tapUnselectable _ _ =>
      rw [screenTexts, didSelectCompletion_view]
      rfl
  | tapUnfetched _ found => simp [App.populates, found] at populates
  | tapSelected _ _ found => simp [App.populates, found] at populates
  | largeImageLoaded _ => exact absurd rfl (undelivered _ _ _)
  | endedEditing ended _ => cases e <;> first | cases populates | cases ended
  | _ => cases populates

/-- A delivery puts the current photo's record on screen, and the empty note while
there is no current photo. -/
theorem screenTexts_of_load {i : Nat} {image : ImageReply} {cells : CellReplies}
    (readable : Readable s') (stepped : Stepped s (.largeImageLoaded i image cells) s') :
    s'.screenTexts = presentedTexts (s'.editor.chosenValue captionCodec) := by
  cases current : s'.viewModel.currentSelectedPhoto with
  | none =>
      rw [screenTexts_of_delivered stepped, current]
      simp [Editor.chosenValue, editor, currentPhotoId, current, exposedNote,
        NoteManager.shownNote, captionCodec, presentedTexts, InBand.present]
  | some photo =>
      have isCurrent : s'.currentPhotoId = some photo.photoId := by
        rw [currentPhotoId, current, Option.map_some]
      rw [presents_of_upToDate stepped readable.upToDate readable.ready isCurrent
        fun note isStored => (readable.legible _ note isStored).truthful]
      simp [Editor.chosenValue, editor, isCurrent, NoteTable.captions]

/-! ### One callback -/

/-- The captions after a save that commits. -/
theorem captions_of_stepped (ready : s.noteManager.Ready) (succeeds : CommitSucceeds ⟨s, e, s'⟩)
    (stepped : Stepped s e s') :
    s'.noteManager.stored.captions =
      if e.endsEditing.isSome then
        s.currentPhotoId.elim s.noteManager.stored.captions fun photoId =>
          Function.update s.noteManager.stored.captions photoId (keptTexts s.screenTexts)
      else s.noteManager.stored.captions := by
  obtain ⟨-, stored⟩ := stored_of_stepped ready succeeds stepped
  rw [stored]
  cases ended : e.endsEditing with
  | none => simp [savesNote, ended]
  | some commit =>
      cases current : s.currentPhotoId with
      | none => simp [savesNote, ended, current]
      | some photoId =>
          simp only [savesNote, ended, current, Option.map_some, Option.elim_some,
            Option.isSome_some, if_true, SaveNoteCall.write, note_screenCall]
          funext other
          by_cases same : other = photoId
          · subst same
            rw [Function.update_self]
            have content := congrArg Prod.fst (content_noteOf s other)
            simpa [NoteTable.captions, screenCall] using content
          · rw [Function.update_of_ne same]
            have unchanged := Function.update_of_ne same
              (some (noteOf photoId s.view.noteTitleTextField s.view.noteDetailTextView))
              s.noteManager.stored
            exact congrArg (fun record => (Note.content record).1) unchanged

theorem screenTexts_of_stepped (kept : s.populates e = false) (stepped : Stepped s e s') :
    s'.screenTexts = (s.titleText e, s.detailText e) :=
  Prod.ext (texts_of_stepped kept stepped).1 (texts_of_stepped kept stepped).2

omit [DateFormatter] in
theorem actions_of_endsEditing {commit : CommitOutcome} (ended : e.endsEditing = some commit) :
    s.actions e = [.save] := by
  cases e <;> first | rfl | cases ended

/-- A callback that neither saves, loads nor populates selects a photo, or changes the
texts on screen. -/
theorem editor_of_plain (readable : Readable s) (succeeds : CommitSucceeds ⟨s, e, s'⟩)
    (unedited : e.endsEditing = none)
    (undelivered : ∀ i image cells, e ≠ .largeImageLoaded i image cells)
    (kept : s.populates e = false) (stepped : Stepped s e s') :
    s'.editor =
      { s.editor with
        chosen := ((s.selects e).map PHAsset.localIdentifier).or s.currentPhotoId
        draft := (s.titleText e, s.detailText e) } := by
  have store := captions_of_stepped readable.ready succeeds stepped
  rw [unedited] at store
  exact Editor.ext store (currentPhotoId_of_stepped stepped) (screenTexts_of_stepped kept stepped)
    (exposedTexts_of_stepped unedited undelivered stepped)

omit [DateFormatter] in
theorem selects_of_populates (populates : s.populates e = true) : s.selects e = none := by
  cases e with
  | permissionResponse status bounds thumbnail =>
      cases status with
      | false => rfl
      | true =>
          have missing := Option.isNone_iff_eq_none.mp populates
          cases thumbnail with
          | nil => rfl
          | delivered => exact missing
  | didSelectItemAt indexPath thumbnail cells =>
      have missing := Option.isNone_iff_eq_none.mp (Bool.and_eq_true_iff.mp populates).2
      cases thumbnail with
      | nil => rfl
      | delivered => simp only [selects, missing, ite_self]
  | _ => rfl

/-- A selection reported as done although its row has no asset. -/
theorem editor_of_reverts (readable : Readable s) (succeeds : CommitSucceeds ⟨s, e, s'⟩)
    (undelivered : ∀ i image cells, e ≠ .largeImageLoaded i image cells)
    (populates : s.populates e = true) (stepped : Stepped s e s') :
    s'.editor = s.editor.applyAll captionCodec (s.actions e) := by
  have unedited : e.endsEditing = none := by
    cases e <;> first | rfl | cases populates
  have reverts : s.actions e = [.revert] := by
    cases e with
    | permissionResponse status bounds thumbnail => simp only [actions, populates, if_true]
    | didSelectItemAt indexPath thumbnail cells => simp only [actions, populates, if_true]
    | largeImageLoaded i image cells => exact absurd rfl (undelivered i image cells)
    | _ => cases populates
  have store := captions_of_stepped readable.ready succeeds stepped
  have chosen := currentPhotoId_of_stepped stepped
  rw [selects_of_populates populates] at chosen
  rw [unedited] at store
  rw [reverts]
  exact Editor.ext store chosen (screenTexts_of_populates populates undelivered stepped)
    (exposedTexts_of_stepped unedited undelivered stepped)

/-- A callback does to the captions what its actions do. -/
theorem editor_of_stepped (readable : Readable s) (succeeds : CommitSucceeds ⟨s, e, s'⟩)
    (stepped : Stepped s e s') :
    s'.editor = s.editor.applyAll captionCodec (s.actions e) := by
  have readable' := readable_step readable succeeds stepped
  have store := captions_of_stepped readable.ready succeeds stepped
  have chosen := currentPhotoId_of_stepped stepped
  by_cases loads : ∃ i image cells, e = .largeImageLoaded i image cells
  · obtain ⟨i, image, cells, rfl⟩ := loads
    have draft := screenTexts_of_load readable' stepped
    have same : s'.editor.chosenValue captionCodec = s.editor.chosenValue captionCodec := by
      simp only [Editor.chosenValue, editor, store, chosen, selects]
      rfl
    rw [same] at draft
    exact Editor.ext store chosen draft ((exposedTexts_of_load stepped).trans draft)
  have undelivered : ∀ i image cells, e ≠ .largeImageLoaded i image cells := by
    rintro i image cells rfl
    exact loads ⟨i, image, cells, rfl⟩
  cases ended : e.endsEditing with
  | some commit =>
      have kept : s.populates e = false := by cases e <;> first | rfl | cases ended
      have texts : (s.titleText e, s.detailText e) = s.screenTexts := by
        cases e <;> first | rfl | cases ended
      rw [selects_of_endsEditing ended] at chosen
      rw [ended] at store
      rw [actions_of_endsEditing ended]
      exact Editor.ext store chosen ((screenTexts_of_stepped kept stepped).trans texts)
        (exposedTexts_of_endsEditing ended stepped)
  | none =>
      cases populates : s.populates e with
      | true => exact editor_of_reverts readable succeeds undelivered populates stepped
      | false =>
          rw [editor_of_plain readable succeeds ended undelivered populates stepped]
          cases selected : s.selects e with
          | none =>
              cases e with
              | largeImageLoaded i image cells => exact absurd rfl (undelivered i image cells)
              | textFieldDidEndEditing commit => cases ended
              | textViewDidEndEditing commit => cases ended
              | permissionResponse status bounds thumbnail =>
                  simp only [actions, populates, selected]
                  rfl
              | didSelectItemAt indexPath thumbnail cells =>
                  simp only [actions, populates, selected]
                  rfl
              | _ => rfl
          | some asset =>
              cases e with
              | permissionResponse status bounds thumbnail =>
                  simp only [actions, populates, selected]
                  rfl
              | didSelectItemAt indexPath thumbnail cells =>
                  simp only [actions, populates, selected]
                  rfl
              | _ => cases selected

/-- While commits succeed, the app carries out its actions on the captions. -/
def captioning :
    Simulation App.step fun (t : Editor String (String × String) (String × String)) action =>
      some (t.apply captionCodec action) where
  Rel s t := Readable s ∧ s.editor = t
  Allowed := CommitSucceeds
  emits := actions
  carried := by
    rintro s s' e t succeeds ⟨readable, rfl⟩ taken
    obtain ⟨-, stepped⟩ := stepped_of_step taken
    obtain ⟨steps, played⟩ := exists_play_of_total
      (fun (t : Editor _ _ _) => t.apply captionCodec) s.editor (s.actions e)
    exact ⟨steps, _, played, readable_step readable succeeds stepped,
      editor_of_stepped readable succeeds stepped⟩

/-- The captions when the app has been launched on a table: nothing is chosen, and
the screen shows the texts of the storyboard. -/
def editorOn (table : NoteTable) : Editor String (String × String) (String × String) where
  store := table.captions
  chosen := none
  draft := ("", Constants.defaultNoteDetail)
  exposed := ("", "")

omit [DateFormatter] in
theorem editor_app {launch : Launch} {table : NoteTable} (opened : launch.opened = some table) :
    launch.app.editor = editorOn table := by
  have stored : launch.app.noteManager.stored = table := by
    simp only [Launch.app, App.viewDidLoad, opened]
    rfl
  rw [editor, stored]
  rfl

/-- On a store that the app wrote and while commits succeed, every run makes of the
records, the current photo and the texts on screen what its actions make of them:
taps choose, deliveries load, ends of editing save, and nothing else does. -/
theorem editor_eq_applyAll {launch : Launch} {table : NoteTable}
    {history : List (Transition App Event)} (opened : launch.opened = some table)
    (written : ∀ photoId note, table photoId = some note → note.WrittenByApp)
    (run : launch.Run history s) (succeed : ∀ t ∈ history, CommitSucceeds t) :
    s.editor = (editorOn table).applyAll captionCodec
      (history.flatMap fun t => t.before.actions t.event) := by
  have related : captioning.Rel launch.app (editorOn table) :=
    ⟨readable_app opened written, editor_app opened⟩
  obtain ⟨history', t, played, -, same⟩ := captioning.play_of_run related run succeed
  obtain ⟨steps, total⟩ := exists_play_of_total
    (fun (t : Editor _ _ _) => t.apply captionCodec) (editorOn table)
    (captioning.events history)
  rw [total] at played
  rw [same, ← (Prod.mk.inj (Option.some.inj played)).2]
  rfl

end Steps

/-- The third photo is shown on the store that has its title, then a note is typed for
the first, and the third is tapped again while an edit of the first is open. -/
def noteBesideSunset : List Event :=
  startup ++ [.textViewShouldBeginEditing, .textViewShouldEndEditing,
    .textViewDidEndEditing .succeeds, .didSelectItemAt ⟨0⟩ .delivered ⟨.delivered, .delivered⟩,
    .largeImageLoaded 0 .nil ⟨.delivered, .delivered⟩, .typeTitle "Harbour",
    .textFieldDidEndEditing .succeeds, .typeDetail "At noon",
    .didSelectItemAt ⟨2⟩ .delivered ⟨.delivered, .delivered⟩,
    .largeImageLoaded 0 .delivered ⟨.delivered, .delivered⟩]

/-- The launch on that store. -/
def sunsetLaunch : Launch := { Launch.threePhotos with opened := some sunsetTable }

theorem editor_eq_applyAll_noteBesideSunset :
    ∃ history s, sunsetLaunch.app.Plays noteBesideSunset history s ∧
      s.editor = (editorOn sunsetTable).applyAll captionCodec
        (history.flatMap fun t => t.before.actions t.event) := by
  have plays : sunsetLaunch.app.Plays noteBesideSunset _ _ := rfl
  exact ⟨_, _, plays, @editor_eq_applyAll DateFormatter.plain _ _ _ _ rfl
    writtenByApp_sunsetTable plays.run (by decide)⟩

section Photo

variable [DateFormatter] {s s' : App} {e : Event}

/-! ### One photo -/

omit [DateFormatter] in
/-- The flag of a truthful record goes by its texts. -/
theorem content_eq_of_captions {table table' : NoteTable} {photoId : String}
    (truthful : ∀ note, table photoId = some note → note.Truthful)
    (truthful' : ∀ note, table' photoId = some note → note.Truthful)
    (same : table.captions photoId = table'.captions photoId) :
    Note.content (table photoId) = Note.content (table' photoId) := by
  have flag {record : Option Note} (truthful : ∀ note, record = some note → note.Truthful) :
      (Note.content record).2 = decide ((Note.content record).1 ≠ ("", "")) := by
    cases record with
    | none => rfl
    | some note =>
        rw [Bool.eq_iff_iff, decide_eq_true_iff]
        exact Note.truthful_iff.mp (truthful note rfl)
  refine Prod.ext same ?_
  rw [flag truthful, flag truthful']
  exact congrArg (fun texts => decide (texts ≠ ("", ""))) same

/-- Nothing is typed while this photo's note is shown, and no edit ends with this photo
current while another's note is shown. -/
def SparesPhoto (photoId : String) (shown : Option String) (t : Transition App Event) : Prop :=
  (t.event.types = true → shown ≠ some photoId) ∧
    (t.event.endsEditing.isSome → t.before.currentPhotoId = some photoId →
      shown = some photoId)

instance (photoId : String) (shown : Option String) (t : Transition App Event) :
    Decidable (SparesPhoto photoId shown t) :=
  inferInstanceAs (Decidable ((_ → _) ∧ (_ → _ → _)))

omit [DateFormatter] in
/-- Clearing and restoring the placeholder is no edit of what would be kept. -/
theorem keptTexts_of_untyped (untyped : e.types = false) :
    keptTexts (s.titleText e, s.detailText e) = keptTexts s.screenTexts := by
  have detail : storedDetail (s.detailText e) = storedDetail s.view.noteDetailTextView := by
    apply storedDetail_detailText
    rintro text rfl
    cases untyped
  refine Prod.ext ?_ detail
  cases e <;> first | rfl | cases untyped

theorem undisturbed_of_stepped {photoId : String} {value : String × String}
    {shown : Option String} (legible : keptTexts (presentedTexts value) = value)
    (readable : Readable s) (succeeds : CommitSucceeds ⟨s, e, s'⟩)
    (spares : SparesPhoto photoId shown ⟨s, e, s'⟩) (stepped : Stepped s e s')
    (before : Undisturbed captionCodec photoId value shown s.editor) :
    Undisturbed captionCodec photoId value (shownPhoto.observe shown ⟨s, e, s'⟩) s'.editor := by
  have acts := editor_of_stepped readable succeeds stepped
  have current := currentPhotoId_of_stepped stepped
  obtain ⟨untyped, saves⟩ := spares
  -- One action, of which it is to be shown that it spares the photo.
  have one {action : Action String (String × String)} (only : s.actions e = [action])
      (shownSame : shownPhoto.observe shown ⟨s, e, s'⟩ = shownAfter s.editor shown action)
      (spares : Spares captionCodec photoId shown s.editor action) :
      Undisturbed captionCodec photoId value (shownPhoto.observe shown ⟨s, e, s'⟩) s'.editor := by
    rw [acts, only, shownSame]
    exact before.apply (C := captionCodec) legible spares
  have typed (text : String × String) (types : e.types = true) :
      Spares captionCodec photoId shown s.editor (.edit text) :=
    fun isShown => absurd isShown (untyped types)
  have chooses (plain : s.actions e = if s.populates e then [.revert]
        else ((s.selects e).map fun asset => .choose asset.localIdentifier).toList)
      (shownSame : shownPhoto.observe shown ⟨s, e, s'⟩ = shown) :
      Undisturbed captionCodec photoId value (shownPhoto.observe shown ⟨s, e, s'⟩) s'.editor := by
    cases populates : s.populates e with
    | true =>
        rw [populates, if_pos rfl] at plain
        exact one plain shownSame trivial
    | false =>
        cases selected : s.selects e with
        | some asset =>
            rw [populates, selected] at plain
            exact one plain shownSame trivial
        | none =>
            rw [populates, selected] at plain
            rw [acts, plain, shownSame]
            exact before
  cases e with
  | largeImageLoaded i image cells =>
      exact one rfl current trivial
  | typeTitle text => exact one rfl rfl (typed _ rfl)
  | typeDetail text => exact one rfl rfl (typed _ rfl)
  | textViewShouldBeginEditing =>
      exact one rfl rfl fun _ => keptTexts_of_untyped rfl
  | textViewShouldEndEditing =>
      exact one rfl rfl fun _ => keptTexts_of_untyped rfl
  | textFieldDidEndEditing commit => exact one rfl rfl (saves rfl)
  | textViewDidEndEditing commit => exact one rfl rfl (saves rfl)
  | permissionResponse status bounds thumbnail => exact chooses rfl rfl
  | didSelectItemAt indexPath thumbnail cells => exact chooses rfl rfl
  | cellForItemAt indexPath thumbnail => exact chooses rfl rfl
  | photoLibraryDidChange changeDetails => exact chooses rfl rfl
  | viewWillLayoutSubviews itemSize => exact chooses rfl rfl

/-- A photo's record says at the end of a run what it said at launch, if nothing was
typed while its note was shown and no edit ended with it current unless its own note
was shown: whatever was done to other photos, and however taps and deliveries
overlapped, commits succeeding. -/
theorem content_of_sparesPhoto {launch : Launch} {table : NoteTable}
    {history : List (Transition App Event)} {photoId : String}
    (opened : launch.opened = some table)
    (written : ∀ photoId note, table photoId = some note → note.WrittenByApp)
    (run : launch.Run history s) (succeed : ∀ t ∈ history, CommitSucceeds t)
    (spared : shownPhoto.Along (SparesPhoto photoId) history) :
    Note.content (s.noteManager.stored photoId) = Note.content (table photoId) := by
  have legible : keptTexts (presentedTexts (table.captions photoId)) = table.captions photoId := by
    apply InBand.keep_present
    simp only [NoteTable.captions]
    cases record : table photoId with
    | none => exact blank_ne_placeholder
    | some note => exact (written photoId note record).legible.real
  let Kept (shown : Option String) (s : App) : Prop :=
    Readable s ∧ Undisturbed captionCodec photoId (table.captions photoId) shown s.editor
  have initial : Kept shownPhoto.initial launch.app := by
    refine ⟨readable_app opened written, ?_⟩
    rw [editor_app opened]
    refine ⟨rfl, ?_, ?_⟩
    · intro shown
      cases shown
    · intro shown
      cases shown
  have kept : Kept (shownPhoto.after history) s := by
    refine Run.invariant_along
      (C := fun shown t => CommitSucceeds t ∧ SparesPhoto photoId shown t) initial ?_ run
      (Observer.along_and ((Observer.along_const_iff shownPhoto).mpr succeed) spared)
    rintro shown s e s' ⟨succeeds, spares⟩ ⟨readable, before⟩ taken
    obtain ⟨-, stepped⟩ := stepped_of_step taken
    exact ⟨readable_step readable succeeds stepped,
      undisturbed_of_stepped legible readable succeeds spares stepped before⟩
  obtain ⟨readable, undisturbed⟩ := kept
  exact content_eq_of_captions (fun note stored => (readable.legible _ note stored).truthful)
    (fun note stored => (written _ note stored).legible.truthful) undisturbed.stored

end Photo

theorem content_of_sparesPhoto_noteBesideSunset :
    ∃ history s, sunsetLaunch.app.Plays noteBesideSunset history s ∧
      Note.content (s.noteManager.stored "c") = Note.content (sunsetTable "c") := by
  have plays : sunsetLaunch.app.Plays noteBesideSunset _ _ := rfl
  exact ⟨_, _, plays, @content_of_sparesPhoto DateFormatter.plain _ _ _ _ _ rfl
    writtenByApp_sunsetTable plays.run (by decide) (by decide)⟩

end App

end Phonotes
