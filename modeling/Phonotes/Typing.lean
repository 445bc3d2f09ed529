import Phonotes.Captions
import Phonotes.SerialUse
import Phonotes.Sessions

/-!
`NoteTakingViewController.swift`: the two text inputs, and what becomes of what is typed.

At most one of the inputs is first responder, and what is typed goes there. Another input
or the return key takes that away, and UIKit then makes the calls that the app saves on.
So once no input is being edited there is nothing left to save. The return key is the only
way to end an edit of the detail, which is why a newline gets no further than the delegate.
-/

namespace Phonotes

open TransitionSystem KeyedEditor NoteTakingViewModel

/-- What the user types into the two fields in this event is from these sources. -/
def Event.TypesFrom (titles details : String → Prop) : Event → Prop
  | .typeTitle text => titles text
  | .typeDetail text => details text
  | _ => True

namespace App

/-! ### What is not saved -/

section Unsaved

/-- History: a photo was selected and no load delivered since. -/
def unloaded : Observer App Event Bool where
  initial := false
  observe unloaded t :=
    match t.event with
    | .largeImageLoaded _ _ _ => false
    | e => unloaded || (t.before.selects e).isSome

/-- History: something was typed since the screen was last populated or its texts saved. -/
def unsaved : Observer App Event Bool where
  initial := false
  observe unsaved t :=
    t.event.types || unsaved && !t.before.populates t.event && t.event.endsEditing.isNone

def marks : Observer App Event (Bool × Bool) := unloaded.pair unsaved

/-- The records can be read back, and the current one is what the screen would keep, up to
what is marked. -/
structure Tracked (marks : Bool × Bool) (s : App) : Prop where
  readable : Readable s
  synced : Synced captionCodec (marks.1 = true) (marks.2 = true) s.editor
  pending : marks.1 = true → s.pendingLoads ≠ []

theorem keptTexts_captions {s : App} (readable : Readable s) (photoId : String) :
    keptTexts (presentedTexts (s.noteManager.stored.captions photoId)) =
      s.noteManager.stored.captions photoId := by
  apply InBand.keep_present
  simp only [NoteTable.captions]
  cases record : s.noteManager.stored photoId with
  | none => exact blank_ne_placeholder
  | some note => exact (readable.legible photoId note record).real

variable [DateFormatter] {s s' : App} {e : Event} {before : Bool × Bool}

theorem synced_of_stepped (readable : Readable s) (succeeds : CommitSucceeds ⟨s, e, s'⟩)
    (stepped : Stepped s e s')
    (synced : Synced captionCodec (before.1 = true) (before.2 = true) s.editor) :
    Synced captionCodec ((marks.observe before ⟨s, e, s'⟩).1 = true)
      ((marks.observe before ⟨s, e, s'⟩).2 = true) s'.editor := by
  have acts := editor_of_stepped readable succeeds stepped
  -- One action, whose marks are to be among those of the event.
  have one {action : Action String (String × String)} (only : s.actions e = [action])
      (loaded : unloadedAfter (before.1 = true) action →
        (marks.observe before ⟨s, e, s'⟩).1 = true)
      (saved : unsavedAfter captionCodec s.editor (before.2 = true) action →
        (marks.observe before ⟨s, e, s'⟩).2 = true) :
      Synced captionCodec ((marks.observe before ⟨s, e, s'⟩).1 = true)
        ((marks.observe before ⟨s, e, s'⟩).2 = true) s'.editor := by
    rw [acts, only]
    exact (synced.apply fun photoId _ => keptTexts_captions readable photoId).mono loaded saved
  have chooses (plain : s.actions e = if s.populates e then [.revert]
        else ((s.selects e).map fun asset => .choose asset.localIdentifier).toList)
      (loads : (marks.observe before ⟨s, e, s'⟩).1 = (before.1 || (s.selects e).isSome))
      (saves : (marks.observe before ⟨s, e, s'⟩).2 = (before.2 && !s.populates e)) :
      Synced captionCodec ((marks.observe before ⟨s, e, s'⟩).1 = true)
        ((marks.observe before ⟨s, e, s'⟩).2 = true) s'.editor := by
    cases populates : s.populates e with
    | true =>
        rw [populates, if_pos rfl] at plain
        refine one plain ?_ False.elim
        intro wasUnloaded
        rw [loads, show before.1 = true from wasUnloaded, Bool.true_or]
    | false =>
        rw [populates, Bool.not_false, Bool.and_true] at saves
        cases selected : s.selects e with
        | some asset =>
            rw [populates, selected] at plain
            refine one plain ?_ ?_
            · intro _
              rw [loads, selected, Option.isSome_some, Bool.or_true]
            · intro wasUnsaved
              exact saves.trans wasUnsaved
        | none =>
            rw [populates, selected] at plain
            rw [selected, Option.isSome_none, Bool.or_false] at loads
            rw [acts, plain, loads, saves]
            exact synced
  -- The placeholder that comes or goes is no edit of what would be kept.
  have untyped (only : s.actions e = [.edit (s.titleText e, s.detailText e)])
      (types : e.types = false)
      (same : marks.observe before ⟨s, e, s'⟩ = before) :
      Synced captionCodec ((marks.observe before ⟨s, e, s'⟩).1 = true)
        ((marks.observe before ⟨s, e, s'⟩).2 = true) s'.editor := by
    refine one only ?_ ?_
    · rw [same]
      exact id
    · rw [same]
      rintro (wasUnsaved | edited)
      · exact wasUnsaved
      · exact absurd (keptTexts_of_untyped types) edited
  have selectsNone : (before.1 || (none : Option PHAsset).isSome) = before.1 := Bool.or_false _
  have plainly (marked : Bool) : (false || marked && true) = marked := by cases marked <;> rfl
  cases e with
  | largeImageLoaded i image cells => exact one rfl False.elim False.elim
  | typeTitle text => exact one rfl selectsNone.trans fun _ => rfl
  | typeDetail text => exact one rfl selectsNone.trans fun _ => rfl
  | textFieldDidEndEditing commit => exact one rfl selectsNone.trans False.elim
  | textViewDidEndEditing commit => exact one rfl selectsNone.trans False.elim
  | textViewShouldBeginEditing =>
      exact untyped rfl rfl (Prod.ext selectsNone ((plainly _).trans (Bool.and_true _)))
  | textViewShouldEndEditing =>
      exact untyped rfl rfl (Prod.ext selectsNone ((plainly _).trans (Bool.and_true _)))
  | permissionResponse status bounds thumbnail => exact chooses rfl rfl (plainly _)
  | didSelectItemAt indexPath thumbnail cells => exact chooses rfl rfl (plainly _)
  | cellForItemAt indexPath thumbnail => exact chooses rfl rfl (plainly _)
  | photoLibraryDidChange changeDetails => exact chooses rfl rfl (plainly _)
  | viewWillLayoutSubviews itemSize => exact chooses rfl rfl (plainly _)

/-- A selection that is not loaded is a load that is pending. -/
theorem pending_of_stepped (stepped : Stepped s e s')
    (pending : before.1 = true → s.pendingLoads ≠ [])
    (selected : (marks.observe before ⟨s, e, s'⟩).1 = true) : s'.pendingLoads ≠ [] := by
  rw [pendingLoads_of_stepped stepped]
  have kept : s.keptLoads e = s.pendingLoads := by
    cases e with
    | largeImageLoaded i image cells => cases selected
    | _ => rfl
  have either : before.1 = true ∨ (s.selects e).isSome = true := by
    rw [← Bool.or_eq_true_iff]
    cases e with
    | largeImageLoaded i image cells => cases selected
    | _ => exact selected
  intro none
  obtain ⟨noneKept, noneStarted⟩ := List.append_eq_nil_iff.mp none
  rcases either with wasUnloaded | selects
  · exact pending wasUnloaded (kept ▸ noneKept)
  · obtain ⟨asset, found⟩ := Option.isSome_iff_exists.mp selects
    obtain ⟨load, starts, -⟩ := startsLoad_of_selects stepped found
    rw [starts] at noneStarted
    cases noneStarted

theorem tracked_step (tracked : Tracked before s) (succeeds : CommitSucceeds ⟨s, e, s'⟩)
    (stepped : Stepped s e s') : Tracked (marks.observe before ⟨s, e, s'⟩) s' where
  readable := readable_step tracked.readable succeeds stepped
  synced := synced_of_stepped tracked.readable succeeds stepped tracked.synced
  pending := pending_of_stepped stepped tracked.pending

theorem tracked_of_run {history : List (Transition App Event)} (tracked : Tracked before s)
    (run : Run App.step s history s') (succeed : ∀ t ∈ history, CommitSucceeds t) :
    Tracked (history.foldl marks.observe before) s' :=
  Run.invariant_along (O := ⟨before, marks.observe⟩) (I := Tracked)
    (C := fun _ t => CommitSucceeds t) tracked
    (fun _ _ _ _ succeeds before taken => tracked_step before succeeds (stepped_of_step taken).2)
    run ((Observer.along_const_iff _).mpr succeed)

end Unsaved

/-! ### Where texts come from -/

section Sources

/-- A title and a detail from these sources. -/
def From (titles details : String → Prop) (texts : String × String) : Prop :=
  titles texts.1 ∧ details texts.2

/-- What the app says, on screen, exposed to it or in records on disk or not yet there, is
from these sources. -/
structure Sourced (titles details : String → Prop) (s : App) : Prop where
  screen : From titles details s.screenTexts
  exposed : From titles details s.exposedTexts
  row : ∀ photoId note, s.noteManager.row photoId = some note → From titles details note.texts
  stored : ∀ photoId note, s.noteManager.stored photoId = some note →
    From titles details note.texts

variable {titles details : String → Prop} (noTitle : titles "") (noDetail : details "")
  (placeholder : details Constants.defaultNoteDetail)

include noTitle placeholder in
/-- What is shown for a record is from where the record is, or the empty note's. -/
theorem from_shownNote {record : Option Note}
    (recorded : ∀ note, record = some note → From titles details note.texts) :
    From titles details
      ((NoteManager.shownNote record).1.getD "", (NoteManager.shownNote record).2.getD "") := by
  cases record with
  | none => exact ⟨noTitle, placeholder⟩
  | some note =>
      simp only [NoteManager.shownNote]
      split_ifs with hasNote
      · exact recorded note rfl
      · exact ⟨noTitle, placeholder⟩

include noTitle noDetail placeholder in
theorem from_exposedNote {noteManager : NoteManager} (photo : Option Photo)
    (row : ∀ photoId note, noteManager.row photoId = some note → From titles details note.texts) :
    From titles details ((exposedNote noteManager photo).1.getD "",
      (exposedNote noteManager photo).2.getD "") := by
  apply from_shownNote noTitle placeholder
  intro note isRead
  obtain ⟨managed, -, rfl⟩ := Option.map_eq_some_iff.mp isRead
  simp only [NoteManager.read]
  cases held : noteManager.row managed.photoId with
  | none => exact ⟨noTitle, noDetail⟩
  | some note => exact row _ note held

variable [DateFormatter] {s s' : App} {e : Event}

omit [DateFormatter] in
include noDetail in
/-- A save writes the texts on screen, or the empty detail for the placeholder. -/
theorem from_write {rows : String → Option Note} {call : SaveNoteCall}
    (screen : From titles details s.screenTexts) (writes : s.savesNote e = some call)
    (recorded : ∀ photoId note, rows photoId = some note → From titles details note.texts) :
    ∀ photoId note, call.write rows photoId = some note → From titles details note.texts := by
  obtain ⟨-, current, -, rfl⟩ := savesNote_eq_some_iff.mp writes
  intro photoId note isRow
  rw [SaveNoteCall.write, note_screenCall, Function.update_apply] at isRow
  split_ifs at isRow with isCurrent
  · obtain rfl := Option.some.inj isRow
    refine ⟨screen.1, ?_⟩
    simp only [Note.texts, noteOf, Option.getD_some, storedDetail]
    split_ifs
    · exact noDetail
    · exact screen.2
  · exact recorded photoId note isRow

omit [DateFormatter] in
theorem savesNote_of_writesNote {call : SaveNoteCall} (writes : s.writesNote e = some call) :
    s.savesNote e = some call := by
  unfold writesNote at writes
  split at writes
  · cases writes
  · split_ifs at writes
    exact writes

/-- The records on disk stay, or take the save of this event. -/
theorem stored_cases (stepped : Stepped s e s') :
    s'.noteManager.stored = s.noteManager.stored ∨
      ∃ call, s.savesNote e = some call ∧
        s'.noteManager.stored = call.write s.noteManager.stored := by
  cases held : s.noteManager.realm with
  | none =>
      left
      funext photoId
      simp only [NoteManager.stored, held, closed_of_stepped stepped held]
  | some realm =>
      obtain ⟨realm', held', committed⟩ := committed_of_stepped stepped held
      have before : s.noteManager.stored = realm.committed := by
        funext photoId
        simp only [NoteManager.stored, held, Option.bind_some]
      have after : s'.noteManager.stored = realm'.committed := by
        funext photoId
        simp only [NoteManager.stored, held', Option.bind_some]
      rw [before, after, committed]
      split_ifs with succeeds
      · cases writes : s.writesNote e with
        | none => exact Or.inl rfl
        | some call => exact Or.inr ⟨call, savesNote_of_writesNote writes, rfl⟩
      · exact Or.inl rfl

omit [DateFormatter] in
include noDetail placeholder in
/-- Typing, and the placeholder that comes and goes. -/
theorem from_texts (screen : From titles details s.screenTexts)
    (typed : e.TypesFrom titles details) :
    From titles details (s.titleText e, s.detailText e) := by
  cases e with
  | typeTitle text => exact ⟨typed, screen.2⟩
  | typeDetail text => exact ⟨screen.1, typed⟩
  | textViewShouldBeginEditing =>
      refine ⟨screen.1, ?_⟩
      simp only [detailText]
      split_ifs
      · exact noDetail
      · exact screen.2
  | textViewShouldEndEditing =>
      refine ⟨screen.1, ?_⟩
      simp only [detailText]
      split_ifs
      · exact placeholder
      · exact screen.2
  | _ => exact screen

include noTitle noDetail placeholder in
theorem sourced_step (sourced : Sourced titles details s) (typed : e.TypesFrom titles details)
    (stepped : Stepped s e s') : Sourced titles details s' := by
  have row : ∀ photoId note, s'.noteManager.row photoId = some note →
      From titles details note.texts := by
    rw [row_of_stepped stepped]
    cases writes : s.writesNote e with
    | none => exact sourced.row
    | some call =>
        exact from_write noDetail sourced.screen (savesNote_of_writesNote writes) sourced.row
  have stored : ∀ photoId note, s'.noteManager.stored photoId = some note →
      From titles details note.texts := by
    rcases stored_cases stepped with same | ⟨call, saves, same⟩
    · rw [same]
      exact sourced.stored
    · rw [same]
      exact from_write noDetail sourced.screen saves sourced.stored
  by_cases loads : ∃ i image cells, e = .largeImageLoaded i image cells
  · obtain ⟨i, image, cells, rfl⟩ := loads
    have screen : From titles details s'.screenTexts := by
      rw [screenTexts_of_delivered stepped]
      exact from_exposedNote noTitle noDetail placeholder _ row
    refine ⟨screen, ?_, row, stored⟩
    rw [exposedTexts_of_load stepped]
    exact screen
  · have undelivered : ∀ i image cells, e ≠ .largeImageLoaded i image cells := by
      rintro i image cells rfl
      exact loads ⟨i, image, cells, rfl⟩
    refine ⟨?_, ?_, row, stored⟩
    · cases populates : s.populates e with
      | true =>
          rw [screenTexts_of_populates populates undelivered stepped]
          exact sourced.exposed
      | false =>
          rw [screenTexts_of_stepped populates stepped]
          exact from_texts noDetail placeholder sourced.screen typed
    · cases ended : e.endsEditing with
      | none =>
          rw [exposedTexts_of_stepped ended undelivered stepped]
          exact sourced.exposed
      | some commit =>
          rw [exposedTexts_of_endsEditing ended stepped]
          exact sourced.screen

omit [DateFormatter] in
include noTitle noDetail placeholder in
theorem sourced_app {launch : Launch}
    (opened : ∀ table, launch.opened = some table → ∀ photoId note, table photoId = some note →
      From titles details note.texts) : Sourced titles details launch.app := by
  have table (photoId : String) : launch.app.noteManager.row photoId =
      launch.opened.bind fun table => table photoId := by
    simp only [Launch.app, App.viewDidLoad, NoteManager.init, NoteManager.row]
    cases launch.opened <;> rfl
  have stored (photoId : String) : launch.app.noteManager.stored photoId =
      launch.opened.bind fun table => table photoId := by
    simp only [Launch.app, App.viewDidLoad, NoteManager.init, NoteManager.stored]
    cases launch.opened <;> rfl
  refine ⟨⟨noTitle, placeholder⟩, ⟨noTitle, noDetail⟩, ?_, ?_⟩
  · intro photoId note isRow
    rw [table] at isRow
    obtain ⟨records, isOpen, recorded⟩ := Option.bind_eq_some_iff.mp isRow
    exact opened records isOpen photoId note recorded
  · intro photoId note isStored
    rw [stored] at isStored
    obtain ⟨records, isOpen, recorded⟩ := Option.bind_eq_some_iff.mp isStored
    exact opened records isOpen photoId note recorded

include noTitle noDetail placeholder in
theorem sourced_of_run {history : List (Transition App Event)} (sourced : Sourced titles details s)
    (run : Run App.step s history s') (typed : ∀ t ∈ history, t.event.TypesFrom titles details) :
    Sourced titles details s' := by
  refine Run.invariant (C := fun t => t.event.TypesFrom titles details) sourced ?_ run typed
  intro s e s' typed sourced taken
  exact sourced_step noTitle noDetail placeholder sourced typed (stepped_of_step taken).2

end Sources

section Known

/-- A text of some record at launch. -/
def Recorded (launch : Launch) (field : String × String → String) (text : String) : Prop :=
  ∃ table photoId note, launch.opened = some table ∧ table photoId = some note ∧
    field note.texts = text

/-- The titles that there can be: the empty one, those recorded and those typed. -/
def KnownTitle (launch : Launch) (history : List (Transition App Event)) (text : String) : Prop :=
  text = "" ∨ Recorded launch Prod.fst text ∨ ∃ t ∈ history, t.event = .typeTitle text

/-- The details that there can be: also the placeholder. -/
def KnownDetail (launch : Launch) (history : List (Transition App Event)) (text : String) :
    Prop :=
  text = "" ∨ text = Constants.defaultNoteDetail ∨ Recorded launch Prod.snd text ∨
    ∃ t ∈ history, t.event = .typeDetail text

/-- Every title and detail on screen or in a record was typed there, was recorded at launch,
or is the empty text or the placeholder: also where commits throw, and with any overlap of
taps and deliveries. -/
theorem known_of_run [DateFormatter] {launch : Launch} {s : App}
    {history : List (Transition App Event)} (run : launch.Run history s) :
    Sourced (KnownTitle launch history) (KnownDetail launch history) s := by
  have noTitle : KnownTitle launch history "" := Or.inl rfl
  have noDetail : KnownDetail launch history "" := Or.inl rfl
  have placeholder : KnownDetail launch history Constants.defaultNoteDetail := Or.inr (Or.inl rfl)
  refine sourced_of_run noTitle noDetail placeholder
    (sourced_app noTitle noDetail placeholder ?_) run ?_
  · intro table opened photoId note isRow
    have recorded (field : String × String → String) : Recorded launch field (field note.texts) :=
      ⟨table, photoId, note, opened, isRow, rfl⟩
    exact ⟨Or.inr (Or.inl (recorded Prod.fst)), Or.inr (Or.inr (Or.inl (recorded Prod.snd)))⟩
  · intro t member
    cases typed : t.event with
    | typeTitle text => exact Or.inr (Or.inr ⟨t, member, typed⟩)
    | typeDetail text => exact Or.inr (Or.inr (Or.inr ⟨t, member, typed⟩))
    | _ => trivial

theorem known_of_run_noteBesideSunset :
    ∃ history s, sunsetLaunch.app.Plays noteBesideSunset history s ∧
      Sourced (KnownTitle sunsetLaunch history) (KnownDetail sunsetLaunch history) s := by
  have plays : sunsetLaunch.app.Plays noteBesideSunset _ _ := rfl
  exact ⟨_, _, plays, @known_of_run DateFormatter.plain _ _ _ plays.run⟩

end Known

end App

/-! ### First responder -/

inductive TextInput where
  | noteTitleTextField
  | noteDetailTextView
  deriving DecidableEq, Repr

namespace TextInput

/-- The delegate is asked before the detail view becomes first responder; of the title
field it implements no such method. -/
def begins : TextInput → List Event
  | .noteTitleTextField => []
  | .noteDetailTextView => [.textViewShouldBeginEditing]

/-- The delegate's calls when the input stops being first responder. -/
def ends (commit : CommitOutcome) : TextInput → List Event
  | .noteTitleTextField => [.textFieldDidEndEditing commit]
  | .noteDetailTextView => [.textViewShouldEndEditing, .textViewDidEndEditing commit]

def text (s : App) : TextInput → String
  | .noteTitleTextField => s.view.noteTitleTextField
  | .noteDetailTextView => s.view.noteDetailTextView

end TextInput

/-- The app, and the text input that is typed into. -/
structure Typing where
  app : App
  firstResponder : Option TextInput := none

/-- `commit` is how the commit ends that this may lead to. -/
inductive TypingEvent where
  | tap (input : TextInput) (commit : CommitOutcome)
  | noteTitleEditButtontapped (commit : CommitOutcome)
  | textFieldShouldReturn (commit : CommitOutcome)
  /-- `text` is to take the place of `range`, which stands between `head` and `tail`. -/
  | replaceText (head range tail text : String) (commit : CommitOutcome)
  | callback (event : Event)
  deriving DecidableEq, Repr

/-- How the save of an event ends, if it makes one. -/
def TypingEvent.commit : TypingEvent → Option CommitOutcome
  | .tap _ commit => some commit
  | .noteTitleEditButtontapped commit => some commit
  | .textFieldShouldReturn commit => some commit
  | .replaceText _ _ _ _ commit => some commit
  | .callback _ => none

/-- A call that UIKit makes on account of a text input. -/
def Event.isOfTextInput : Event → Bool
  | .typeTitle _ => true
  | .typeDetail _ => true
  | .textFieldDidEndEditing _ => true
  | .textViewShouldBeginEditing => true
  | .textViewShouldEndEditing => true
  | .textViewDidEndEditing _ => true
  | _ => false

namespace Typing

/-- `resignFirstResponder()` of the first responder, and `endEditing(true)` of the view. -/
def resignFirstResponder (self : Typing) (commit : CommitOutcome) : List Event :=
  self.firstResponder.elim [] (TextInput.ends commit)

/-- `becomeFirstResponder()`: the input is asked, then the one before it ends its edit. -/
def becomeFirstResponder (self : Typing) (input : TextInput) (commit : CommitOutcome) :
    List Event :=
  if self.firstResponder = some input then []
  else input.begins ++ self.resignFirstResponder commit

/-- `textView(_:shouldChangeTextIn:replacementText:)`: the answer, and what is called in the
course of it. -/
def shouldChangeTextIn (self : Typing) (text : String) (commit : CommitOutcome) :
    Bool × List Event :=
  if text = "\n" then (false, self.resignFirstResponder commit) else (true, [])

/-- The calls that an event leads to, and the first responder after them. A refused app
takes no taps on its inputs; the button still works. -/
def react (self : Typing) : TypingEvent → Option (List Event × Option TextInput)
  | .tap input commit =>
      if self.app.view.getAccessButtonIsHidden then
        some (self.becomeFirstResponder input commit, some input)
      else none
  | .noteTitleEditButtontapped commit =>
      some (self.becomeFirstResponder .noteTitleTextField commit, some .noteTitleTextField)
  | .textFieldShouldReturn commit =>
      if self.firstResponder = some .noteTitleTextField then
        some (self.resignFirstResponder commit, none)
      else none
  | .replaceText head range tail text commit =>
      match self.firstResponder with
      | none => none
      | some input =>
          if head ++ range ++ tail = input.text self.app then
            match input with
            | .noteTitleTextField =>
                some ([.typeTitle (head ++ text ++ tail)], some .noteTitleTextField)
            | .noteDetailTextView =>
                match self.shouldChangeTextIn text commit with
                | (true, calls) =>
                    some (calls ++ [.typeDetail (head ++ text ++ tail)], some .noteDetailTextView)
                | (false, calls) => some (calls, none)
          else none
  | .callback event => if event.isOfTextInput then none else some ([event], self.firstResponder)

section Step

variable [DateFormatter]

def step (self : Typing) (event : TypingEvent) : Option Typing :=
  if self.app.raised.isSome then none
  else (self.react event).bind fun reaction =>
    (play App.step self.app reaction.1).map fun played => ⟨played.2, reaction.2⟩

variable {t t' : Typing} {e : TypingEvent}

/-- A step is a run of the app, of the calls that the event leads to. -/
theorem run_of_step (taken : t.step e = some t') :
    ∃ calls history, t.react e = some (calls, t'.firstResponder) ∧
      Run App.step t.app history t'.app ∧ history.map Transition.event = calls := by
  unfold step at taken
  split_ifs at taken
  obtain ⟨⟨calls, firstResponder⟩, reacts, played⟩ := Option.bind_eq_some_iff.mp taken
  obtain ⟨⟨history, app⟩, playedCalls, rfl⟩ := Option.map_eq_some_iff.mp played
  exact ⟨calls, history, reacts, run_of_play playedCalls, map_event_of_play playedCalls⟩

end Step

section Reactions

variable {t : Typing} {e : TypingEvent} {calls : List Event} {firstResponder : Option TextInput}

/-- `Reacted t e calls firstResponder`: one way in which an event is dealt with. -/
inductive Reacted (t : Typing) : TypingEvent → List Event → Option TextInput → Prop where
  | becomes {e : TypingEvent} {commit : CommitOutcome} (input : TextInput) :
      e.commit = some commit →
      Reacted t e (t.becomeFirstResponder input commit) (some input)
  | resigns {e : TypingEvent} {commit : CommitOutcome} {input : TextInput} :
      e.commit = some commit → t.firstResponder = some input →
      Reacted t e (input.ends commit) none
  | typedTitle {head range tail text : String} {commit : CommitOutcome} :
      Reacted t (.replaceText head range tail text commit) [.typeTitle (head ++ text ++ tail)]
        (some .noteTitleTextField)
  | typedDetail {head range tail text : String} {commit : CommitOutcome} :
      head ++ range ++ tail = t.app.view.noteDetailTextView → text ≠ "\n" →
      Reacted t (.replaceText head range tail text commit) [.typeDetail (head ++ text ++ tail)]
        (some .noteDetailTextView)
  | called {event : Event} :
      event.isOfTextInput = false → Reacted t (.callback event) [event] t.firstResponder

theorem reacted_of_react (reacts : t.react e = some (calls, firstResponder)) :
    Reacted t e calls firstResponder := by
  have resigns {input : TextInput} (held : t.firstResponder = some input)
      (commit : CommitOutcome) : t.resignFirstResponder commit = input.ends commit := by
    rw [resignFirstResponder, held, Option.elim_some]
  cases e with
  | tap input commit =>
      simp only [react] at reacts
      split_ifs at reacts
      cases reacts
      exact .becomes input rfl
  | noteTitleEditButtontapped commit =>
      cases reacts
      exact .becomes .noteTitleTextField rfl
  | textFieldShouldReturn commit =>
      simp only [react] at reacts
      split_ifs at reacts with held
      cases reacts
      rw [resigns held]
      exact .resigns rfl held
  | replaceText head range tail text commit =>
      simp only [react] at reacts
      cases held : t.firstResponder with
      | none => simp [held] at reacts
      | some input =>
          simp only [held] at reacts
          split_ifs at reacts with stands
          cases input with
          | noteTitleTextField =>
              cases reacts
              exact .typedTitle
          | noteDetailTextView =>
              by_cases isReturn : text = "\n"
              · simp only [shouldChangeTextIn, if_pos isReturn, resigns held] at reacts
                cases reacts
                exact .resigns rfl held
              · simp only [shouldChangeTextIn, if_neg isReturn, List.nil_append] at reacts
                cases reacts
                exact .typedDetail stands isReturn
  | callback event =>
      simp only [react] at reacts
      split_ifs at reacts with ofTextInput
      cases reacts
      exact .called (Bool.eq_false_iff.mpr ofTextInput)

theorem mem_ends {input : TextInput} {commit : CommitOutcome} {call : Event}
    (member : call ∈ input.ends commit) :
    call.types = false ∧ (call.endsEditing = none ∨ call.endsEditing = some commit) := by
  cases input with
  | noteTitleTextField =>
      obtain rfl := List.mem_singleton.mp member
      exact ⟨rfl, Or.inr rfl⟩
  | noteDetailTextView =>
      rcases List.mem_cons.mp member with rfl | last
      · exact ⟨rfl, Or.inl rfl⟩
      · obtain rfl := List.mem_singleton.mp last
        exact ⟨rfl, Or.inr rfl⟩

theorem mem_becomeFirstResponder {input : TextInput} {commit : CommitOutcome} {call : Event}
    (member : call ∈ t.becomeFirstResponder input commit) :
    call.types = false ∧ (call.endsEditing = none ∨ call.endsEditing = some commit) := by
  unfold becomeFirstResponder at member
  split_ifs at member
  · cases member
  · rcases List.mem_append.mp member with begun | ended
    · cases input with
      | noteTitleTextField => cases begun
      | noteDetailTextView =>
          obtain rfl := List.mem_singleton.mp begun
          exact ⟨rfl, Or.inl rfl⟩
    · unfold resignFirstResponder at ended
      cases held : t.firstResponder with
      | none => simp [held] at ended
      | some other =>
          rw [held] at ended
          exact mem_ends ended

/-- What is called saves with the outcome of the event, if it saves. -/
theorem Reacted.endsEditing (reacted : Reacted t e calls firstResponder) {call : Event}
    (member : call ∈ calls) : call.endsEditing = none ∨ call.endsEditing = e.commit := by
  cases reacted with
  | becomes input commits =>
      rw [commits]
      exact (mem_becomeFirstResponder member).2
  | resigns commits held =>
      rw [commits]
      exact (mem_ends member).2
  | typedTitle =>
      obtain rfl := List.mem_singleton.mp member
      exact Or.inl rfl
  | typedDetail stands notReturn =>
      obtain rfl := List.mem_singleton.mp member
      exact Or.inl rfl
  | @called event notText =>
      obtain rfl := List.mem_singleton.mp member
      left
      cases call with
      | textFieldDidEndEditing commit => cases notText
      | textViewDidEndEditing commit => cases notText
      | _ => rfl

end Reactions

section Rest

variable {t t' : Typing} {e : TypingEvent} {before : Bool × Bool}
  {history : List (Transition App Event)}

/-- After the calls of an input that is left, nothing is unsaved. -/
theorem unsaved_of_ends {input : TextInput} {commit : CommitOutcome}
    (calls : history.map Transition.event = input.ends commit) :
    (history.foldl App.marks.observe before).2 = false := by
  have saved {u : Transition App Event} {marked : Bool × Bool}
      (untyped : u.event.types = false) (ended : u.event.endsEditing = some commit) :
      (App.marks.observe marked u).2 = false := by
    simp [App.marks, Observer.pair, App.unsaved, untyped, ended]
  cases input with
  | noteTitleTextField =>
      obtain ⟨u, rfl, event⟩ := List.map_eq_singleton_iff.mp calls
      exact saved (by rw [event]; rfl) (by rw [event]; rfl)
  | noteDetailTextView =>
      obtain ⟨asked, rest, rfl, -, restCalls⟩ := List.map_eq_cons_iff.mp calls
      obtain ⟨u, rfl, event⟩ := List.map_eq_singleton_iff.mp restCalls
      exact saved (by rw [event]; rfl) (by rw [event]; rfl)

/-- Nothing unsaved is left behind by an input that is not edited. -/
theorem unsaved_of_reacted {calls : List Event} {firstResponder : Option TextInput}
    (reacted : Reacted t e calls firstResponder)
    (called : history.map Transition.event = calls)
    (edited : before.2 = true → t.firstResponder.isSome)
    (unsaved : (history.foldl App.marks.observe before).2 = true) : firstResponder.isSome := by
  cases reacted with
  | becomes input commits => rfl
  | resigns commits held =>
      rw [unsaved_of_ends called] at unsaved
      cases unsaved
  | typedTitle => rfl
  | typedDetail stands notReturn => rfl
  | @called event notText =>
      obtain ⟨u, rfl, rfl⟩ := List.map_eq_singleton_iff.mp called
      have untyped : u.event.types = false := by
        cases typed : u.event with
        | typeTitle text => simp [typed, Event.isOfTextInput] at notText
        | typeDetail text => simp [typed, Event.isOfTextInput] at notText
        | _ => rfl
      simp only [List.foldl_cons, List.foldl_nil, App.marks, Observer.pair, App.unsaved, untyped,
        Bool.false_or, Bool.and_eq_true] at unsaved
      exact edited unsaved.1.1

end Rest

section Runs

variable [DateFormatter] {t : Typing}

/-- Once the screen has nothing to load and no input is edited, it says for the current
photo what its record says: everything typed has been saved, commits succeeding. -/
theorem atRest_of_run {launch : Launch} {table : NoteTable}
    {history : List (Transition Typing TypingEvent)} {photoId : String}
    (opened : launch.opened = some table)
    (written : ∀ photoId note, table photoId = some note → note.WrittenByApp)
    (run : Run Typing.step ⟨launch.app, none⟩ history t)
    (succeed : ∀ u ∈ history, u.event.commit ≠ some .throws)
    (unedited : t.firstResponder = none) (loaded : t.app.pendingLoads = [])
    (current : t.app.currentPhotoId = some photoId) :
    keptTexts t.app.screenTexts = t.app.noteManager.stored.captions photoId := by
  let Kept (t : Typing) : Prop :=
    ∃ marks, App.Tracked marks t.app ∧ (marks.2 = true → t.firstResponder.isSome)
  have initial : Kept ⟨launch.app, none⟩ := by
    refine ⟨(false, false), ⟨App.readable_app opened written, ?_, nofun⟩, nofun⟩
    have unselected : launch.app.editor.chosen = none := rfl
    exact ⟨by simp [unselected], by simp [unselected]⟩
  have kept : Kept t := by
    refine Run.invariant (C := fun u => u.event.commit ≠ some .throws) initial ?_ run succeed
    rintro t e t' succeeds ⟨marks, tracked, edited⟩ taken
    obtain ⟨calls, made, reacts, ran, called⟩ := run_of_step taken
    have reacted := reacted_of_react reacts
    refine ⟨_, App.tracked_of_run tracked ran ?_, unsaved_of_reacted reacted called edited⟩
    intro u member throws
    have isCall : u.event ∈ calls := by
      rw [← called]
      exact List.mem_map_of_mem member
    rcases reacted.endsEditing isCall with silent | saves
    · cases silent.symm.trans throws
    · exact succeeds (saves.symm.trans throws)
  obtain ⟨marks, tracked, edited⟩ := kept
  have isLoaded : ¬ marks.1 = true := fun unloaded => tracked.pending unloaded loaded
  have isSaved : ¬ marks.2 = true := by
    intro unsaved
    have isEdited := edited unsaved
    rw [unedited] at isEdited
    cases isEdited
  exact tracked.synced.draft isLoaded isSaved photoId current

end Runs

/-! ### The return key -/

/-- There is no newline in the text. -/
def SingleLine (text : String) : Prop := '\n' ∉ text.toList

instance (text : String) : Decidable (SingleLine text) := inferInstanceAs (Decidable (_ ∉ _))

theorem singleLine_append_iff {text text' : String} :
    SingleLine (text ++ text') ↔ SingleLine text ∧ SingleLine text' := by
  simp only [SingleLine, String.toList_append, List.mem_append, not_or]

/-- Text is put in without a newline, as from the keyboard, or it is the return key. -/
def ByKey : TypingEvent → Prop
  | .replaceText _ _ _ text _ => text = "\n" ∨ SingleLine text
  | _ => True

instance (e : TypingEvent) : Decidable (ByKey e) :=
  match e with
  | .replaceText _ _ _ _ _ => inferInstanceAs (Decidable (_ ∨ _))
  | .tap _ _ => inferInstanceAs (Decidable True)
  | .noteTitleEditButtontapped _ => inferInstanceAs (Decidable True)
  | .textFieldShouldReturn _ => inferInstanceAs (Decidable True)
  | .callback _ => inferInstanceAs (Decidable True)

section Lines

variable {t : Typing} {e : TypingEvent}

/-- Of a detail in one line, what is put in by key leaves a detail in one line. -/
theorem Reacted.typesFrom {calls : List Event} {firstResponder : Option TextInput}
    (reacted : Reacted t e calls firstResponder) (byKey : ByKey e)
    (before : SingleLine t.app.view.noteDetailTextView) :
    ∀ call ∈ calls, call.TypesFrom (fun _ => True) SingleLine := by
  have silent {call : Event} (untyped : call.types = false) :
      call.TypesFrom (fun _ => True) SingleLine := by
    cases call with
    | typeDetail text => cases untyped
    | _ => trivial
  intro call member
  cases reacted with
  | becomes input commits => exact silent (mem_becomeFirstResponder member).1
  | resigns commits held => exact silent (mem_ends member).1
  | typedTitle =>
      obtain rfl := List.mem_singleton.mp member
      trivial
  | typedDetail stands notReturn =>
      obtain rfl := List.mem_singleton.mp member
      rw [← stands, singleLine_append_iff, singleLine_append_iff] at before
      obtain ⟨⟨head, -⟩, tail⟩ := before
      have text := byKey.resolve_left notReturn
      exact singleLine_append_iff.mpr ⟨singleLine_append_iff.mpr ⟨head, text⟩, tail⟩
  | called notText =>
      obtain rfl := List.mem_singleton.mp member
      cases call with
      | typeDetail text => cases notText
      | _ => trivial

/-- The return key ends the edit and leaves no newline: if none was recorded at launch and
none is put in together with other text, there is never one in a detail, on screen or in a
record, whether or not commits go through. -/
theorem singleLine_of_run [DateFormatter] {launch : Launch}
    {history : List (Transition Typing TypingEvent)}
    (opened : ∀ table, launch.opened = some table → ∀ photoId note, table photoId = some note →
      SingleLine note.texts.2)
    (run : Run Typing.step ⟨launch.app, none⟩ history t)
    (byKey : ∀ u ∈ history, ByKey u.event) :
    App.Sourced (fun _ => True) SingleLine t.app := by
  have blank : SingleLine "" := by decide
  have placeholder : SingleLine Constants.defaultNoteDetail := by decide
  have initial : App.Sourced (fun _ => True) SingleLine launch.app :=
    App.sourced_app trivial blank placeholder fun table isOpen photoId note recorded =>
      ⟨trivial, opened table isOpen photoId note recorded⟩
  refine Run.invariant (P := fun t => App.Sourced (fun _ => True) SingleLine t.app)
    (C := fun u => ByKey u.event) initial ?_ run byKey
  intro t e t' isKey sourced taken
  obtain ⟨calls, made, reacts, ran, called⟩ := run_of_step taken
  have typed := (reacted_of_react reacts).typesFrom isKey sourced.screen.2
  refine App.sourced_of_run trivial blank placeholder sourced ran ?_
  intro u member
  apply typed
  rw [← called]
  exact List.mem_map_of_mem member

end Lines

/-- On the store with a titled photo its detail is typed and then its title changed, until
the return key is pressed; then the detail is changed, and the return key pressed in it. -/
def typedByKey : List TypingEvent :=
  [.callback (.permissionResponse true ⟨320, 240⟩ .delivered),
    .callback (.largeImageLoaded 0 .delivered ⟨.delivered, .delivered⟩),
    .tap .noteDetailTextView .succeeds, .replaceText "" "" "" "At noon" .succeeds,
    .noteTitleEditButtontapped .succeeds, .replaceText "Sun" "set" "" "rise" .succeeds,
    .textFieldShouldReturn .succeeds, .tap .noteDetailTextView .succeeds,
    .replaceText "At " "noon" "" "dusk" .succeeds, .replaceText "At" " " "dusk" "\n" .succeeds]

theorem atRest_of_run_typedByKey :
    ∃ history t, play (@Typing.step DateFormatter.plain) ⟨App.sunsetLaunch.app, none⟩
        typedByKey = some (history, t) ∧
      keptTexts t.app.screenTexts = t.app.noteManager.stored.captions "c" := by
  have plays : play (@Typing.step DateFormatter.plain) ⟨App.sunsetLaunch.app, none⟩
    typedByKey = some (_, _) := rfl
  exact ⟨_, _, plays, @atRest_of_run DateFormatter.plain _ _ _ _ _ rfl App.writtenByApp_sunsetTable
    (run_of_play plays) (by decide) rfl rfl rfl⟩

theorem singleLine_of_run_typedByKey :
    ∃ history t, play (@Typing.step DateFormatter.plain) ⟨App.sunsetLaunch.app, none⟩
        typedByKey = some (history, t) ∧
      App.Sourced (fun _ => True) SingleLine t.app := by
  have plays : play (@Typing.step DateFormatter.plain) ⟨App.sunsetLaunch.app, none⟩
    typedByKey = some (_, _) := rfl
  refine ⟨_, _, plays, @singleLine_of_run _ DateFormatter.plain _ _ ?_ (run_of_play plays)
    (by decide)⟩
  rintro table ⟨⟩ photoId note recorded
  unfold App.sunsetTable at recorded
  split_ifs at recorded
  obtain rfl := Option.some.inj recorded
  decide

end Typing

end Phonotes
