import Phonotes.Runs

/-!
Whose note a save writes.

`NoteTakingViewModel.saveNote` writes the texts on screen under the photo that is
current when editing ends. A tap makes another photo current at once, but the
texts follow only when its load is delivered. `Focus` keeps the two apart, and
the result is exact: every save goes to the photo whose note is shown if and
only if no edit ends in between.
-/

namespace Phonotes

open TransitionSystem

namespace App

/-! ### The photo on screen -/

/-- History: the photo whose note was last put on screen after a delivery. -/
def shownPhoto : Observer App Event (Option String) where
  initial := none
  observe shown t :=
    match t.event with
    | .largeImageLoaded _ _ _ => t.after.currentPhotoId
    | _ => shown

/-- Every save of this transition is for the photo whose note is shown. -/
def SavedUnderShown (shown : Option String) (t : Transition App Event) : Prop :=
  ∀ call ∈ saveNoteCallsIn t, shown = some call.photoId

instance (shown : Option String) (t : Transition App Event) :
    Decidable (SavedUnderShown shown t) :=
  inferInstanceAs (Decidable (∀ _ ∈ _, _))

/-! ### The photo in focus -/

/-- The photo selected when a load was last delivered, and the one selected
since. -/
structure Focus where
  settled : Option String
  unsettled : Option String

/-- The photo that is current. -/
def Focus.current (focus : Focus) : Option String := focus.unsettled.or focus.settled

/-- History: selections unsettle the focus, deliveries settle it. It is read off
the events and the rows they select. -/
def focus : Observer App Event Focus where
  initial := ⟨none, none⟩
  observe focus t :=
    match t.event with
    | .largeImageLoaded _ _ _ => ⟨focus.current, none⟩
    | e =>
        match t.before.selects e with
        | some asset => ⟨focus.settled, some asset.localIdentifier⟩
        | none => focus

/-- No other photo was selected since the last delivery. -/
def Focus.Undisturbed (focus : Focus) : Prop :=
  focus.unsettled = none ∨ focus.unsettled = focus.settled

theorem Focus.undisturbed_iff (focus : Focus) :
    focus.Undisturbed ↔ focus.current = none ∨ focus.settled = focus.current := by
  obtain ⟨settled, unsettled⟩ := focus
  cases unsettled with
  | none => simp [Undisturbed, current]
  | some id =>
      simp only [Undisturbed, current, reduceCtorEq, false_or, Option.some_or]
      exact eq_comm

/-- An edit ends only while the focus is undisturbed. -/
def EndsEditingUndisturbed (focus : Focus) (t : Transition App Event) : Prop :=
  t.event.endsEditing.isSome → focus.Undisturbed

/-! ### The two histories and the state -/

/-- The note shown is that of the settled photo, and the photo in focus is the
current one. -/
structure Focused (shown : Option String) (focus : Focus) (s : App) : Prop where
  shown_eq : shown = focus.settled
  current_eq : s.currentPhotoId = focus.current

theorem focused_app (launch : Launch) :
    Focused shownPhoto.initial focus.initial launch.app where
  shown_eq := rfl
  current_eq := rfl

section Histories

variable [DateFormatter] {s s' : App} {e : Event} {shown : Option String} {focused : Focus}

/-- Selections and deliveries move the histories along with the current photo. -/
theorem focused_step (before : Focused shown focused s) (taken : s.step e = some s') :
    Focused (shownPhoto.observe shown ⟨s, e, s'⟩) (focus.observe focused ⟨s, e, s'⟩) s' := by
  obtain ⟨-, stepped⟩ := stepped_of_step taken
  have current := currentPhotoId_of_stepped stepped
  by_cases loads : ∃ i image cells, e = .largeImageLoaded i image cells
  · obtain ⟨i, image, cells, rfl⟩ := loads
    simp only [selects, Option.map_none, Option.none_or] at current
    exact ⟨current.trans before.current_eq, current.trans before.current_eq⟩
  · have shownKept : shownPhoto.observe shown ⟨s, e, s'⟩ = shown := by
      cases e <;> first | rfl | exact absurd ⟨_, _, _, rfl⟩ loads
    have moved : focus.observe focused ⟨s, e, s'⟩ =
        match s.selects e with
        | some asset => ⟨focused.settled, some asset.localIdentifier⟩
        | none => focused := by
      cases e <;> first | rfl | exact absurd ⟨_, _, _, rfl⟩ loads
    rw [shownKept, moved]
    cases selected : s.selects e with
    | none =>
        rw [selected, Option.map_none, Option.none_or] at current
        exact ⟨before.shown_eq, current.trans before.current_eq⟩
    | some asset =>
        rw [selected] at current
        exact ⟨before.shown_eq, current⟩

/-- A step saves under the photo shown exactly when it does not end an edit
while another photo is in focus. -/
theorem savedUnderShown_iff (before : Focused shown focused s) (taken : s.step e = some s') :
    SavedUnderShown shown ⟨s, e, s'⟩ ↔ EndsEditingUndisturbed focused ⟨s, e, s'⟩ := by
  obtain ⟨-, stepped⟩ := stepped_of_step taken
  obtain ⟨rfl, current⟩ := before
  unfold SavedUnderShown EndsEditingUndisturbed
  rw [saveNoteCallsIn_of_stepped stepped, Focus.undisturbed_iff, ← current]
  cases ended : e.endsEditing with
  | none => simp [savesNote, ended]
  | some commit =>
      cases selected : s.currentPhotoId with
      | none => simp [savesNote, ended, selected]
      | some id => simp [savesNote, ended, selected, screenCall]

/-- Along a run every save goes to the photo whose note is shown exactly when no
edit ends between the selection of another photo and the next delivery. -/
theorem savesUnderShown_iff {launch : Launch} {history : List (Transition App Event)}
    (run : launch.Run history s) :
    shownPhoto.Along SavedUnderShown history ↔ focus.Along EndsEditingUndisturbed history := by
  let Tied (h : Option String × Focus) (s : App) : Prop := Focused h.1 h.2 s
  have initial : Tied (shownPhoto.pair focus).initial launch.app := focused_app launch
  have preserved : ∀ h s e s', Tied h s → s.step e = some s' →
      Tied ((shownPhoto.pair focus).observe h ⟨s, e, s'⟩) s' :=
    fun h s e s' before taken => focused_step before taken
  calc shownPhoto.Along SavedUnderShown history
    _ ↔ (shownPhoto.pair focus).Along (fun h => SavedUnderShown h.1) history :=
      (Observer.along_pair_left focus).symm
    _ ↔ (shownPhoto.pair focus).Along (fun h => EndsEditingUndisturbed h.2) history :=
      Run.along_congr initial (fun h s e s' _ => preserved h s e s')
        (fun h s e s' _ before taken => savedUnderShown_iff before taken) run
        (Observer.along_true _ history)
    _ ↔ focus.Along EndsEditingUndisturbed history := Observer.along_pair_right shownPhoto

end Histories

/-- A photo is shown and its title typed; the edit ends after its load, and
another photo is tapped only then. -/
def editThenTap : List Event :=
  startup ++ [.typeTitle "Sunset", .textFieldDidEndEditing .succeeds,
    .didSelectItemAt ⟨0⟩ .delivered ⟨.delivered, .delivered⟩]

theorem savesUnderShown_iff_editThenTap :
    ∃ history s, Launch.threePhotos.app.Plays editThenTap history s ∧
      (shownPhoto.Along SavedUnderShown history ↔
        focus.Along EndsEditingUndisturbed history) := by
  have plays : Launch.threePhotos.app.Plays editThenTap _ _ := rfl
  exact ⟨_, _, plays, @savesUnderShown_iff DateFormatter.plain _ _ _ plays.run⟩

/-- The other order: the tap comes first, and the edit ends while its load is
pending. -/
def tapThenEdit : List Event :=
  startup ++ [.typeTitle "Sunset", .didSelectItemAt ⟨0⟩ .delivered ⟨.delivered, .delivered⟩,
    .textFieldDidEndEditing .succeeds]

/-- The title typed for the third photo is then saved under the first. -/
theorem exists_save_under_tapped_photo :
    ∃ history s, Launch.threePhotos.app.Plays tapThenEdit history s ∧
      ¬ shownPhoto.Along SavedUnderShown history :=
  ⟨_, _, rfl, by decide⟩

/-! ### Text that is typed -/

/-- The texts typed since the fields were last populated. -/
structure Draft where
  title : Option String
  detail : Option String

/-- History: what was typed and not yet overwritten on screen. -/
def draft : Observer App Event Draft where
  initial := ⟨none, none⟩
  observe draft t :=
    if .populate ∈ callsIn t then ⟨none, none⟩
    else match t.event with
      | .typeTitle text => { draft with title := some text }
      | .typeDetail text => { draft with detail := some text }
      | _ => draft

/-- The record of the photo shown has what was typed. -/
def Draft.StoredUnder (shown : Option String) (table : NoteTable) (draft : Draft) : Prop :=
  (∀ text ∈ draft.title, ∃ note ∈ shown.bind table, note.noteTitle = some text) ∧
    ∀ text ∈ draft.detail, ∃ note ∈ shown.bind table, note.noteDetail = some (storedDetail text)

instance (shown : Option String) (table : NoteTable) (draft : Draft) :
    Decidable (draft.StoredUnder shown table) :=
  inferInstanceAs (Decidable (_ ∧ _))

/-- When the fields are populated, what was typed into them is already stored
under the photo it was typed for. -/
def TypedTextStored (h : Option String × Draft) (t : Transition App Event) : Prop :=
  .populate ∈ callsIn t → h.2.StoredUnder h.1 t.before.noteManager.stored

instance (h : Option String × Draft) (t : Transition App Event) :
    Decidable (TypedTextStored h t) :=
  inferInstanceAs (Decidable (_ → _))

/-- The photo shown is the current one. -/
def Focus.Settled (focus : Focus) : Prop := focus.settled.isSome ∧ focus.Undisturbed

instance (focus : Focus) : Decidable focus.Undisturbed := inferInstanceAs (Decidable (_ ∨ _))

instance (focus : Focus) : Decidable focus.Settled := inferInstanceAs (Decidable (_ ∧ _))

theorem Focus.Settled.exists_id {focus : Focus} (settled : focus.Settled) :
    ∃ id, focus.settled = some id ∧ focus.current = some id := by
  obtain ⟨some, undisturbed⟩ := settled
  obtain ⟨id, isId⟩ := Option.isSome_iff_exists.mp some
  refine ⟨id, isId, ?_⟩
  rcases undisturbed with none | same
  · simp [Focus.current, none, isId]
  · simp [Focus.current, same, isId]

/-- The focus, and whether something was typed since the fields were last
populated or an edit last ended with the focus settled. -/
structure Editing where
  focus : Focus
  unsaved : Bool

/-- History: read off the events and the rows they select. -/
def editing : Observer App Event Editing where
  initial := ⟨focus.initial, false⟩
  observe editing t :=
    { focus := focus.observe editing.focus t
      unsaved :=
        if t.before.populates t.event then false
        else match t.event with
          | .typeTitle _ => true
          | .typeDetail _ => true
          | e => if e.endsEditing.isSome ∧ editing.focus.Settled then false else editing.unsaved }

/-- The fields are populated only when nothing is left unsaved. -/
def PopulatesSaved (editing : Editing) (t : Transition App Event) : Prop :=
  t.before.populates t.event → editing.unsaved = false

instance (editing : Editing) (t : Transition App Event) : Decidable (PopulatesSaved editing t) :=
  inferInstanceAs (Decidable (_ → _))

/-- The record that holds the texts on screen. -/
def screenNote (s : App) (photoId : String) : Note := (s.screenCall photoId).note

/-- The draft is what the fields show, and in the table unless something is
unsaved. -/
structure Drafted (h : Option String × Draft) (editing : Editing) (s : App) : Prop where
  focused : Focused h.1 editing.focus s
  ready : s.noteManager.Ready
  title : ∀ text ∈ h.2.title, s.view.noteTitleTextField = text
  detail : ∀ text ∈ h.2.detail, storedDetail s.view.noteDetailTextView = storedDetail text
  saved : editing.unsaved = false → h.2 = ⟨none, none⟩ ∨
    ∃ id, h.1 = some id ∧ s.noteManager.stored id = some (s.screenNote id)

theorem Drafted.storedUnder {h : Option String × Draft} {editing : Editing} {s : App}
    (drafted : Drafted h editing s) (saved : editing.unsaved = false) :
    h.2.StoredUnder h.1 s.noteManager.stored := by
  rcases drafted.saved saved with untyped | ⟨id, shown, stored⟩
  · rw [untyped]
    constructor
    · intro _ typed
      cases typed
    · intro _ typed
      cases typed
  · rw [Draft.StoredUnder, shown, Option.bind_some, stored]
    constructor
    · intro text typed
      exact ⟨_, rfl, congrArg some (drafted.title text typed)⟩
    · intro text typed
      exact ⟨_, rfl, congrArg some (drafted.detail text typed)⟩

/-- A table that has the texts on screen under a photo still has them after they
are saved for some photo. -/
theorem write_screenCall_of_stored {s : App} {table : NoteTable} {id : String}
    (stored : table id = some (s.screenNote id)) (other : String) :
    SaveNoteCall.write table (s.screenCall other) id = some (s.screenNote id) := by
  by_cases same : id = other
  · subst same
    exact Function.update_self ..
  · exact (Function.update_of_ne same ..).trans stored

theorem drafted_app {launch : Launch} {table : NoteTable} (opened : launch.opened = some table) :
    Drafted (shownPhoto.initial, draft.initial) editing.initial launch.app where
  focused := focused_app launch
  ready := by
    rw [Launch.app, opened]
    exact NoteManager.ready_init table
  title text typed := absurd typed (by simp [draft])
  detail text typed := absurd typed (by simp [draft])
  saved _ := Or.inl rfl

section Drafts

variable [DateFormatter] {s s' : App} {e : Event} {h : Option String × Draft} {edit : Editing}

/-- Populating the fields starts a new draft. -/
theorem drafted_populated (before : Drafted h edit s) (succeeds : CommitSucceeds ⟨s, e, s'⟩)
    (taken : s.step e = some s') (populated : s.populates e = true) :
    Drafted ((shownPhoto.pair draft).observe h ⟨s, e, s'⟩) (editing.observe edit ⟨s, e, s'⟩)
      s' := by
  obtain ⟨-, stepped⟩ := stepped_of_step taken
  obtain ⟨ready, -⟩ := stored_of_stepped before.ready succeeds stepped
  have member : .populate ∈ callsIn ⟨s, e, s'⟩ := by
    rw [callsIn_of_stepped stepped]
    exact populate_mem_callsOn_iff.mpr populated
  have cleared : ((shownPhoto.pair draft).observe h ⟨s, e, s'⟩).2 = ⟨none, none⟩ := if_pos member
  refine ⟨focused_step before.focused taken, ready, ?_, ?_, ?_⟩
  · rw [cleared]
    intro _ typed
    cases typed
  · rw [cleared]
    intro _ typed
    cases typed
  · intro _
    exact Or.inl cleared

/-- An event that neither types nor populates keeps the draft; ending an edit
with the focus settled stores what the fields show. -/
theorem drafted_untyped (before : Drafted h edit s) (succeeds : CommitSucceeds ⟨s, e, s'⟩)
    (taken : s.step e = some s') (unpopulated : s.populates e = false)
    (noTitle : ∀ text, e ≠ .typeTitle text) (noDetail : ∀ text, e ≠ .typeDetail text) :
    Drafted ((shownPhoto.pair draft).observe h ⟨s, e, s'⟩) (editing.observe edit ⟨s, e, s'⟩)
      s' := by
  obtain ⟨-, stepped⟩ := stepped_of_step taken
  obtain ⟨ready, stored⟩ := stored_of_stepped before.ready succeeds stepped
  obtain ⟨title, detail⟩ := texts_of_stepped unpopulated stepped
  have sameTitle : s'.view.noteTitleTextField = s.view.noteTitleTextField := by
    rw [title]
    cases e <;> first | rfl | exact absurd rfl (noTitle _)
  have sameDetail : storedDetail s'.view.noteDetailTextView =
      storedDetail s.view.noteDetailTextView := by
    rw [detail, storedDetail_detailText noDetail]
  have sameNote (id : String) : s'.screenNote id = s.screenNote id := by
    simp only [screenNote, screenCall, sameTitle, sameDetail]
  have shown : ((shownPhoto.pair draft).observe h ⟨s, e, s'⟩).1 = h.1 := by
    cases stepped with
    | largeImageLoaded pending => simp [populates, pending] at unpopulated
    | endedEditing ended _ => cases e <;> first | rfl | cases ended
    | _ => rfl
  have kept : ((shownPhoto.pair draft).observe h ⟨s, e, s'⟩).2 = h.2 := by
    have notMember : .populate ∉ callsIn ⟨s, e, s'⟩ := by
      rw [callsIn_of_stepped stepped, populate_mem_callsOn_iff, unpopulated]
      exact Bool.false_ne_true
    refine (if_neg notMember).trans ?_
    cases e <;> first | rfl | exact absurd rfl (noTitle _) | exact absurd rfl (noDetail _)
  have unsaved : (editing.observe edit ⟨s, e, s'⟩).unsaved =
      if e.endsEditing.isSome ∧ edit.focus.Settled then false else edit.unsaved := by
    refine (if_neg (by simp [unpopulated])).trans ?_
    cases e <;> first | rfl | exact absurd rfl (noTitle _) | exact absurd rfl (noDetail _)
  refine ⟨focused_step before.focused taken, ready, ?_, ?_, ?_⟩
  · rw [kept, sameTitle]
    exact before.title
  · rw [kept, sameDetail]
    exact before.detail
  · rw [kept, shown, unsaved, stored]
    simp only [sameNote]
    intro saved
    by_cases stores : e.endsEditing.isSome ∧ edit.focus.Settled
    · obtain ⟨ended, settled⟩ := stores
      obtain ⟨commit, isEnd⟩ := Option.isSome_iff_exists.mp ended
      obtain ⟨id, isSettled, isCurrent⟩ := settled.exists_id
      refine Or.inr ⟨id, before.focused.shown_eq.trans isSettled, ?_⟩
      simp only [savesNote, isEnd, before.focused.current_eq, isCurrent, Option.map_some,
        Option.elim_some, SaveNoteCall.write, screenCall, Function.update_self]
      rfl
    · rw [if_neg stores] at saved
      rcases before.saved saved with untyped | ⟨id, isShown, isStored⟩
      · exact Or.inl untyped
      · refine Or.inr ⟨id, isShown, ?_⟩
        cases saves : s.savesNote e with
        | none => exact isStored
        | some call =>
            obtain ⟨-, other, -, rfl⟩ := savesNote_eq_some_iff.mp saves
            exact write_screenCall_of_stored isStored other

/-- Typing changes the draft and leaves it unsaved. -/
theorem drafted_typed (before : Drafted h edit s) (succeeds : CommitSucceeds ⟨s, e, s'⟩)
    (taken : s.step e = some s')
    (typed : (∃ text, e = .typeTitle text) ∨ ∃ text, e = .typeDetail text) :
    Drafted ((shownPhoto.pair draft).observe h ⟨s, e, s'⟩) (editing.observe edit ⟨s, e, s'⟩)
      s' := by
  obtain ⟨-, stepped⟩ := stepped_of_step taken
  obtain ⟨ready, -⟩ := stored_of_stepped before.ready succeeds stepped
  have focused := focused_step before.focused taken
  have calls := callsIn_of_stepped stepped
  rcases typed with ⟨text, rfl⟩ | ⟨text, rfl⟩
  · obtain ⟨title, detail⟩ := texts_of_stepped rfl stepped
    have moved : draft.observe h.2 ⟨s, .typeTitle text, s'⟩ = { h.2 with title := some text } :=
      if_neg (by simp [calls, callsOn])
    refine ⟨focused, ready, ?_, ?_, ?_⟩
    · intro other typed
      obtain rfl : text = other := by simpa [Observer.pair, moved] using typed
      exact title
    · intro other typed
      rw [detail]
      exact before.detail other (by simpa [Observer.pair, moved] using typed)
    · intro saved
      simp [editing, populates] at saved
  · obtain ⟨title, detail⟩ := texts_of_stepped rfl stepped
    have moved : draft.observe h.2 ⟨s, .typeDetail text, s'⟩ = { h.2 with detail := some text } :=
      if_neg (by simp [calls, callsOn])
    refine ⟨focused, ready, ?_, ?_, ?_⟩
    · intro other typed
      rw [title]
      exact before.title other (by simpa [Observer.pair, moved] using typed)
    · intro other typed
      obtain rfl : text = other := by simpa [Observer.pair, moved] using typed
      exact congrArg storedDetail detail
    · intro saved
      simp [editing, populates] at saved

theorem drafted_step (before : Drafted h edit s) (succeeds : CommitSucceeds ⟨s, e, s'⟩)
    (taken : s.step e = some s') :
    Drafted ((shownPhoto.pair draft).observe h ⟨s, e, s'⟩) (editing.observe edit ⟨s, e, s'⟩)
      s' := by
  cases populated : s.populates e with
  | true => exact drafted_populated before succeeds taken populated
  | false =>
      by_cases typed : (∃ text, e = .typeTitle text) ∨ ∃ text, e = .typeDetail text
      · exact drafted_typed before succeeds taken typed
      · rw [not_or] at typed
        exact drafted_untyped before succeeds taken populated
          (fun text same => typed.1 ⟨text, same⟩) (fun text same => typed.2 ⟨text, same⟩)

/-- With every commit succeeding, no typed text is lost along a run that
populates the fields only when each edit of them was ended with the photo shown
still the current one. -/
theorem typedTextStored_of_populatesSaved {launch : Launch} {table : NoteTable}
    {history : List (Transition App Event)} (opened : launch.opened = some table)
    (run : launch.Run history s) (succeed : ∀ t ∈ history, CommitSucceeds t)
    (saved : editing.Along PopulatesSaved history) :
    (shownPhoto.pair draft).Along TypedTextStored history := by
  let Tied (h : (Option String × Draft) × Editing) (s : App) : Prop := Drafted h.1 h.2 s
  let Allowed (h : (Option String × Draft) × Editing) (t : Transition App Event) : Prop :=
    PopulatesSaved h.2 t ∧ CommitSucceeds t
  have initial : Tied ((shownPhoto.pair draft).pair editing).initial launch.app :=
    drafted_app opened
  have allowed : ((shownPhoto.pair draft).pair editing).Along Allowed history :=
    Observer.along_and ((Observer.along_pair_right _).mpr saved)
      ((Observer.along_const_iff _).mpr succeed)
  refine (Observer.along_pair_left editing).mp
    (Run.along_of_invariant (I := Tied) (C := Allowed) initial ?_ ?_ run allowed)
  · intro h s e s' allowed before taken
    exact drafted_step before allowed.2 taken
  · intro h s e s' allowed before taken populated
    obtain ⟨-, stepped⟩ := stepped_of_step taken
    rw [callsIn_of_stepped stepped] at populated
    exact before.storedUnder (allowed.1 (populate_mem_callsOn_iff.mp populated))

end Drafts

/-- The title is typed and the edit ended before the tap. -/
theorem typedTextStored_editThenTap :
    ∃ history s, Launch.threePhotos.app.Plays
        (editThenTap ++ [.largeImageLoaded 0 .delivered ⟨.delivered, .delivered⟩]) history s ∧
      (shownPhoto.pair draft).Along TypedTextStored history := by
  have plays : Launch.threePhotos.app.Plays
      (editThenTap ++ [.largeImageLoaded 0 .delivered ⟨.delivered, .delivered⟩]) _ _ := rfl
  exact ⟨_, _, plays, @typedTextStored_of_populatesSaved DateFormatter.plain _ _ _ _ rfl
    plays.run (by decide) (by decide)⟩

/-- The title is typed, and another photo tapped and delivered before the edit
ends. -/
def tapWhileEditing : List Event :=
  startup ++ [.typeTitle "Sunset", .didSelectItemAt ⟨0⟩ .delivered ⟨.delivered, .delivered⟩,
    .largeImageLoaded 0 .delivered ⟨.delivered, .delivered⟩]

/-- The title is then gone: it was never saved, and is no longer on screen. -/
theorem exists_typed_text_lost :
    ∃ history s, Launch.threePhotos.app.Plays tapWhileEditing history s ∧
      (∀ t ∈ history, CommitSucceeds t) ∧
      ¬ (shownPhoto.pair draft).Along TypedTextStored history :=
  ⟨_, _, rfl, by decide, by decide⟩

end App

end Phonotes
