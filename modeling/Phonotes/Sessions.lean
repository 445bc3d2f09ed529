import Phonotes.Notebook
import Phonotes.SaveReport

/-!
The app over many launches.

`AppDelegate.swift` does nothing when the process is about to end, so all that
outlives a session is the table that Realm has committed. A `Device` keeps that
table and, while the process lives, the app; the process may end between any two
callbacks. The results are about the table over any number of sessions, with
commits that succeed or throw and Realms that open or do not.
-/

namespace Phonotes

open TransitionSystem LastWrite NoteTakingViewModel

/-- The photos of a phone, its note table on disk, and the app while its process
runs. -/
structure Device where
  library : List PHAsset
  table : NoteTable
  app : Option App := none

inductive DeviceEvent where
  /-- The process starts; `opens` is whether `Realm()` opens the table. -/
  | launch (isPhotoLibraryAccessAllowed : Bool) (bounds : CGSize) (opens : Bool)
  | callback (event : Event)
  /-- The process ends: the user or the system ends it, or an exception has. -/
  | terminate
  /-- Photos come and go while the app does not run. -/
  | libraryChange (library : List PHAsset)
  deriving DecidableEq, Repr

namespace Device

/-- The launch that finds this library and this table. -/
def launchOn (self : Device) (isPhotoLibraryAccessAllowed : Bool) (bounds : CGSize)
    (opens : Bool) : Launch where
  isPhotoLibraryAccessAllowed
  bounds
  library := self.library
  opened := if opens then some self.table else none

/-- The device while this app runs on it: the app's Realm, if it opened, is on the
table of the disk. -/
def running (self : Device) (app : App) : Device where
  library := app.library
  table := app.noteManager.realm.elim self.table fun realm => realm.committed
  app := some app

section Step

variable [DateFormatter]

def step (self : Device) (event : DeviceEvent) : Option Device :=
  match self.app, event with
  | none, .launch access bounds opens => some (self.running (self.launchOn access bounds opens).app)
  | none, .libraryChange library => some { self with library }
  | some app, .callback event => (app.step event).map self.running
  | some _, .terminate => some { self with app := none }
  | _, _ => none

/-- The runs of a device. -/
abbrev Run (self : Device) : List (Transition Device DeviceEvent) → Device → Prop :=
  TransitionSystem.Run step self

end Step

/-! ### What a step can do -/

variable [DateFormatter] {d d' : Device} {e : DeviceEvent}

/-- The running app has the library of the device, and its Realm, if it opened, the
table on disk. -/
structure Sound (d : Device) : Prop where
  library : ∀ app, d.app = some app → app.library = d.library
  table : ∀ app realm, d.app = some app → app.noteManager.realm = some realm →
    realm.committed = d.table

/-- `Stepped d e d'`: one way in which a device takes a step. -/
inductive Stepped (d : Device) : DeviceEvent → Device → Prop where
  | launched {access opens : Bool} {bounds : CGSize} :
      d.app = none →
      Stepped d (.launch access bounds opens)
        { d with app := some (d.launchOn access bounds opens).app }
  | called {app app' : App} {event : Event} :
      d.app = some app → app.step event = some app' →
      Stepped d (.callback event) (d.running app')
  | terminated {app : App} :
      d.app = some app → Stepped d .terminate { d with app := none }
  | libraryChanged {library : List PHAsset} :
      d.app = none → Stepped d (.libraryChange library) { d with library }

omit [DateFormatter] in
/-- A launch changes nothing on the device. -/
theorem running_launchOn (d : Device) (access : Bool) (bounds : CGSize) (opens : Bool) :
    d.running (d.launchOn access bounds opens).app =
      { d with app := some (d.launchOn access bounds opens).app } := by
  cases opens <;> rfl

theorem stepped_of_step (taken : d.step e = some d') : Stepped d e d' := by
  cases running : d.app with
  | none =>
      cases e with
      | launch access bounds opens =>
          simp only [step, running, running_launchOn, Option.some.injEq] at taken
          subst taken
          exact .launched running
      | libraryChange library =>
          have kept : ({ d with library } : Device) = ⟨library, d.table, none⟩ := by rw [running]
          simp only [step, running, Option.some.injEq, ← kept] at taken
          subst taken
          exact .libraryChanged running
      | callback event => simp [step, running] at taken
      | terminate => simp [step, running] at taken
  | some app =>
      cases e with
      | callback event =>
          simp only [step, running, Option.map_eq_some_iff] at taken
          obtain ⟨app', called, rfl⟩ := taken
          exact .called running called
      | terminate =>
          simp only [step, running, Option.some.injEq] at taken
          subst taken
          exact .terminated running
      | launch access bounds opens => simp [step, running] at taken
      | libraryChange library => simp [step, running] at taken

theorem sound_of_stepped (stepped : Stepped d e d') : Sound d' := by
  cases stepped with
  | @launched access opens bounds stopped =>
      refine ⟨?_, ?_⟩
      · intro app isApp
        cases isApp
        rfl
      · intro app realm isApp held
        cases isApp
        cases opens with
        | false => cases held
        | true =>
            cases held
            rfl
  | called running called =>
      refine ⟨?_, ?_⟩
      · intro app isApp
        cases isApp
        rfl
      · intro app realm isApp held
        cases isApp
        simp only [Device.running, held, Option.elim_some]
  | terminated _ =>
      refine ⟨?_, ?_⟩
      · intro app isApp
        cases isApp
      · intro app _ isApp _
        cases isApp
  | libraryChanged stopped =>
      refine ⟨?_, ?_⟩
      · intro app isApp
        cases stopped.symm.trans isApp
      · intro app _ isApp _
        cases stopped.symm.trans isApp

/-! ### What is on disk -/

/-- The note that this step commits: an edit ends with a photo selected and the Realm
without an open transaction, and the commit goes through. -/
def commits (t : Transition Device DeviceEvent) : List (String × Option Note) :=
  match t.before.app, t.event with
  | some app, .callback event =>
      if event.endsEditing = some .succeeds then
        ((app.writesNote event).map fun call => (call.photoId, some call.note)).toList
      else []
  | _, _ => []

end Device

namespace App

variable [DateFormatter] {s s' : App} {e : Event}

/-- What is on disk after a callback, whatever becomes of its commit. -/
theorem committed_of_stepped (stepped : Stepped s e s') {realm : Realm}
    (held : s.noteManager.realm = some realm) :
    ∃ realm', s'.noteManager.realm = some realm' ∧
      realm'.committed =
        if e.endsEditing = some .succeeds then
          (s.writesNote e).elim realm.committed (SaveNoteCall.write realm.committed)
        else realm.committed := by
  cases ended : e.endsEditing with
  | none => exact ⟨realm, by rw [noteManager_of_stepped ended stepped, held], rfl⟩
  | some commit =>
      cases stepped with
      | endedEditing same saved =>
          obtain rfl := Option.some.inj (ended.symm.trans same)
          cases saved with
          | noPhoto unselected =>
              exact ⟨realm, held, by simp [writesNote_of_no_photo unselected]⟩
          | noRealm _ closed => cases held.symm.trans closed
          | raised _ holds opened =>
              obtain rfl := Option.some.inj (held.symm.trans holds)
              exact ⟨realm, rfl, by simp [writesNote, held, opened]⟩
          | committed selected holds idle =>
              obtain rfl := Option.some.inj (held.symm.trans holds)
              refine ⟨_, rfl, ?_⟩
              rw [writesNote_of_idle ended selected held idle, ← saveNoteCall_editedViewModel]
              rfl
          | threw _ holds _ =>
              obtain rfl := Option.some.inj (held.symm.trans holds)
              exact ⟨_, rfl, rfl⟩
      | _ => cases ended

/-- A Realm that did not open stays closed. -/
theorem closed_of_stepped (stepped : Stepped s e s') (closed : s.noteManager.realm = none) :
    s'.noteManager.realm = none := by
  cases ended : e.endsEditing with
  | none => rw [noteManager_of_stepped ended stepped, closed]
  | some commit =>
      cases stepped with
      | endedEditing _ saved =>
          cases saved with
          | noPhoto _ => exact closed
          | noRealm _ _ => rfl
          | raised _ held _ | committed _ held _ | threw _ held _ => cases closed.symm.trans held
      | _ => cases ended

end App

namespace Device

variable [DateFormatter] {d d' : Device} {e : DeviceEvent}

/-- One more step writes to the disk what it commits. -/
theorem table_of_stepped (sound : Sound d) (stepped : Stepped d e d') (initial : NoteTable)
    (written : List (String × Option Note)) (before : d.table = lastWrite initial written) :
    d'.table = lastWrite initial (written ++ commits ⟨d, e, d'⟩) := by
  cases stepped with
  | launched stopped => simpa [commits, stopped] using before
  | terminated running => simpa [commits, running] using before
  | libraryChanged stopped => simpa [commits, stopped] using before
  | @called app app' event running called =>
      have stepped := (App.stepped_of_step called).2
      cases held : app.noteManager.realm with
      | none =>
          have closed := App.closed_of_stepped stepped held
          simpa [commits, running, Device.running, closed, App.writesNote, held] using before
      | some realm =>
          obtain ⟨realm', held', committed⟩ := App.committed_of_stepped stepped held
          have onDisk : realm.committed = lastWrite initial written :=
            (sound.table app realm running held).trans before
          simp only [Device.running, held', Option.elim_some, committed, commits, running]
          split_ifs with succeeds
          · cases writes : app.writesNote event with
            | none => simpa using onDisk
            | some call =>
                rw [Option.elim_some, SaveNoteCall.write, onDisk, Option.map_some,
                  Option.toList_some, lastWrite_snoc]
          · simpa using onDisk

omit [DateFormatter] in
theorem sound_of_stopped (stopped : d.app = none) : Sound d := by
  refine ⟨?_, ?_⟩
  · intro app isApp
    cases stopped.symm.trans isApp
  · intro app _ isApp _
    cases stopped.symm.trans isApp

/-- Over any number of sessions, ended at any moment, the table on disk is the
last-write map of exactly the notes whose commits went through, and a running app
whose Realm opened is on that table. -/
theorem table_eq_lastWrite {history : List (Transition Device DeviceEvent)}
    (stopped : d.app = none) (run : d.Run history d') :
    d'.table = lastWrite d.table (history.flatMap commits) ∧
      ∀ app realm, d'.app = some app → app.noteManager.realm = some realm →
        realm.committed = lastWrite d.table (history.flatMap commits) := by
  have reached : Sound d' ∧ d'.table = lastWrite d.table (history.flatMap commits) := by
    induction run with
    | nil => exact ⟨sound_of_stopped stopped, rfl⟩
    | snoc _ taken ih =>
        obtain ⟨sound, before⟩ := ih
        have stepped := stepped_of_step taken
        rw [List.flatMap_append, List.flatMap_singleton]
        exact ⟨sound_of_stepped stepped, table_of_stepped sound stepped _ _ before⟩
  obtain ⟨sound, table⟩ := reached
  refine ⟨table, ?_⟩
  intro app realm running held
  exact (sound.table app realm running held).trans table

/-! ### What is read back -/

/-- History: a commit has thrown since the app was launched. -/
def threw : Observer Device DeviceEvent Bool where
  initial := false
  observe threw t :=
    match t.event with
    | .launch _ _ _ => false
    | .callback event => threw || decide (event.endsEditing = some .throws)
    | _ => threw

/-- A delivery exposes the record that the disk has for the photo that is current. -/
def ReadsDisk (t : Transition Device DeviceEvent) : Prop :=
  ∀ i image cells app, t.event = .callback (.largeImageLoaded i image cells) →
    t.after.app = some app → app.noteManager.realm.isSome →
    ∀ photo, app.viewModel.currentSelectedPhoto = some photo →
      (app.viewModel.noteTitle, app.viewModel.noteDetail) =
        NoteManager.shownNote (t.after.table photo.photoId)

/-- The app that runs reads the disk: its Realm did not open, or no transaction is open
and its photo is up to date. -/
structure Reading (threw : Bool) (d : Device) : Prop where
  sound : Sound d
  reads : threw = false → ∀ app, d.app = some app →
    app.noteManager.realm = none ∨ app.noteManager.Ready ∧ App.UpToDate app

theorem reading_step {threwBefore : Bool} (reading : Reading threwBefore d)
    (stepped : Stepped d e d') : Reading (threw.observe threwBefore ⟨d, e, d'⟩) d' := by
  refine ⟨sound_of_stepped stepped, ?_⟩
  cases stepped with
  | @launched access opens bounds _ =>
      intro _ app isApp
      cases isApp
      cases opens with
      | false => exact Or.inl rfl
      | true =>
          refine Or.inr ⟨NoteManager.ready_init d.table, ?_⟩
          intro photo isCurrent
          cases isCurrent
  | @called app app' event running called =>
      intro unthrown next isNext
      cases isNext
      obtain ⟨earlier, succeeds⟩ := Bool.or_eq_false_iff.mp unthrown
      have stepped := (App.stepped_of_step called).2
      rcases reading.reads earlier app running with closed | ⟨ready, upToDate⟩
      · exact Or.inl (App.closed_of_stepped stepped closed)
      · have commits : App.CommitSucceeds ⟨app, event, app'⟩ := of_decide_eq_false succeeds
        exact Or.inr ⟨(App.stored_of_stepped ready commits stepped).1,
          App.upToDate_step upToDate ready commits stepped⟩
  | terminated _ =>
      intro _ app isApp
      cases isApp
  | libraryChanged stopped =>
      intro _ app isApp
      cases stopped.symm.trans isApp

/-- Whatever sessions went before, while no commit has thrown since the last launch a
delivery gives the view model what is on disk for the current photo, if the Realm opened. -/
theorem readsDisk_of_run {history : List (Transition Device DeviceEvent)}
    (stopped : d.app = none) (run : d.Run history d') :
    threw.Along (fun threwBefore t => threwBefore = false → ReadsDisk t) history := by
  have initial : Reading threw.initial d := by
    refine ⟨sound_of_stopped stopped, ?_⟩
    intro _ app isApp
    cases stopped.symm.trans isApp
  refine Run.along_of_invariant (C := fun _ _ => True) initial
    (fun _ _ _ _ _ reading taken => reading_step reading (stepped_of_step taken)) ?_ run
    (Observer.along_true threw history)
  rintro threwBefore before e after - reading taken unthrown i image cells app rfl isApp opened
    photo current
  have stepped := stepped_of_step taken
  have reading' := reading_step reading stepped
  have still : threw.observe threwBefore
      ⟨before, .callback (.largeImageLoaded i image cells), after⟩ = false := by
    simp [threw, unthrown, Event.endsEditing]
  rcases reading'.reads still app isApp with closed | ⟨ready, upToDate⟩
  · simp [closed] at opened
  · cases stepped with
    | called running called =>
        cases isApp
        have ⟨realm, held, _⟩ := ready
        have onDisk := reading'.sound.table app realm rfl held
        have shown := App.readsBack_of_upToDate upToDate ready (App.stepped_of_step called).2
          i image cells rfl photo current
        rw [shown, ← onDisk]
        simp [NoteManager.stored, held]

end Device

/-! ### The exception that ends a session -/

namespace App

variable [DateFormatter] {s s' : App} {e : Event}

/-- Only an end of editing with a photo selected raises, and only on a Realm with an
open transaction. -/
theorem raised_of_stepped (running : s.raised = none) (stepped : Stepped s e s') :
    s'.raised.isSome ↔ (s.savesNote e).isSome ∧ LeftOpen s := by
  have silent (unedited : e.endsEditing = none) (same : s'.raised = s.raised) :
      s'.raised.isSome ↔ (s.savesNote e).isSome ∧ LeftOpen s := by
    have none : s.savesNote e = none := by simp [savesNote, unedited]
    simp [same, running, none]
  cases stepped with
  | firstUnselectable _ =>
      refine silent rfl ?_
      rw [withPhotoManager_eq]
      rfl
  | firstUnfetched _ =>
      refine silent rfl ?_
      rw [withPhotoManager_eq]
      rfl
  | firstSelected _ _ =>
      refine silent rfl ?_
      rw [withPhotoManager_eq]
      rfl
  | largeImageLoaded _ =>
      refine silent rfl ?_
      rw [largeImageLoaded_eq_completion]
      cases ‹PendingLoad›.completion <;> rfl
  | endedEditing ended saved =>
      cases saved with
      | noPhoto unselected =>
          have none : s.savesNote e = none := by
            simp [savesNote, ended, App.currentPhotoId, unselected]
          simp [none]
      | noRealm selected closed =>
          have shut : ¬ LeftOpen s := by
            rintro ⟨realm, held, -⟩
            cases closed.symm.trans held
          simp [shut]
      | raised selected held opened =>
          have saves : (s.savesNote e).isSome := by
            simp [savesNote, ended, App.currentPhotoId, selected]
          exact iff_of_true rfl ⟨saves, _, held, opened⟩
      | committed _ held idle | threw _ held idle =>
          have shut : ¬ LeftOpen s := by
            rintro ⟨realm, holds, opened⟩
            obtain rfl := Option.some.inj (held.symm.trans holds)
            exact opened idle
          simp [shut]
  | beganEditing =>
      refine silent rfl ?_
      rw [textViewShouldBeginEditing_eq]
  | willEndEditing =>
      refine silent rfl ?_
      rw [textViewShouldEndEditing_eq]
  | _ => exact silent rfl rfl

/-- History: some save was in its write block when the commit threw. -/
def thrownSave : Observer App Event Bool where
  initial := false
  observe thrown t :=
    thrown || (t.before.savesNote t.event).isSome && decide (t.event.endsEditing = some .throws)

/-- The Realm has an open transaction exactly when some save's commit has thrown. -/
def TiedToRealm (thrown : Bool) (s : App) : Prop :=
  match thrown with
  | true => LeftOpen s
  | false => s.noteManager.Ready

theorem tiedToRealm_step {thrown : Bool} (tied : TiedToRealm thrown s)
    (taken : s.step e = some s') : TiedToRealm (thrownSave.observe thrown ⟨s, e, s'⟩) s' := by
  obtain ⟨-, stepped⟩ := stepped_of_step taken
  cases thrown with
  | true => exact (leftOpen_step tied taken).1
  | false =>
      by_cases succeeds : CommitSucceeds ⟨s, e, s'⟩
      · have intact : thrownSave.observe false ⟨s, e, s'⟩ = false := by
          have kept : e.endsEditing ≠ some .throws := succeeds
          simp [thrownSave, kept]
        rw [intact]
        exact (stored_of_stepped tied succeeds stepped).1
      · have ended : e.endsEditing = some .throws := not_not.mp succeeds
        obtain ⟨realm, held, idle⟩ := tied
        cases stepped with
        | endedEditing same saved =>
            obtain rfl := Option.some.inj (ended.symm.trans same)
            cases saved with
            | noPhoto unselected =>
                have intact (s' : App) : thrownSave.observe false ⟨s, e, s'⟩ = false := by
                  simp [thrownSave, savesNote, ended, App.currentPhotoId, unselected]
                rw [intact]
                exact ⟨realm, held, idle⟩
            | noRealm _ closed => cases held.symm.trans closed
            | raised _ holds opened =>
                obtain rfl := Option.some.inj (held.symm.trans holds)
                exact absurd idle opened
            | threw selected _ _ =>
                have thrown (s' : App) : thrownSave.observe false ⟨s, e, s'⟩ = true := by
                  simp [thrownSave, savesNote, ended, App.currentPhotoId, selected]
                rw [thrown]
                exact ⟨_, rfl, by simp [Transaction.Versioned.Idle]⟩
        | _ => cases ended

/-- With the Realm open at launch, Realm raises in a step exactly when it ends an edit with
a photo selected after an earlier such commit threw. -/
theorem raised_iff_of_run {launch : Launch} {table : NoteTable}
    {history : List (Transition App Event)} (opened : launch.opened = some table)
    (run : launch.Run history s) :
    thrownSave.Along (fun thrown t =>
      t.after.raised.isSome ↔ thrown = true ∧ (t.before.savesNote t.event).isSome) history := by
  have initial : TiedToRealm thrownSave.initial launch.app := by
    have ready : launch.app.noteManager.Ready := by
      simp only [Launch.app, App.viewDidLoad, opened]
      exact NoteManager.ready_init table
    exact ready
  refine Run.along_of_invariant (C := fun _ _ => True) initial
    (fun _ _ _ _ _ tied taken => tiedToRealm_step tied taken) ?_ run
    (Observer.along_true thrownSave history)
  intro thrown s e s' _ tied taken
  obtain ⟨running, stepped⟩ := stepped_of_step taken
  rw [raised_of_stepped running stepped]
  cases thrown with
  | true => exact ⟨fun raises => ⟨rfl, raises.1⟩, fun raises => ⟨raises.2, tied⟩⟩
  | false =>
      obtain ⟨realm, held, idle⟩ := tied
      have shut : ¬ LeftOpen s := by
        rintro ⟨realm', holds, opened⟩
        obtain rfl := Option.some.inj (held.symm.trans holds)
        exact opened idle
      simp [shut]

end App

/-! ### Two sessions -/

/-- A phone with the three photos and no notes. -/
def Device.threePhotos : Device where
  library := Launch.threePhotos.library
  table := fun _ => none

/-- The third photo gets a note; the commit of the next one throws, and the one after it
would raise. The app is ended and launched again. -/
def overTwoSessions : List DeviceEvent :=
  [.launch true ⟨320, 240⟩ true] ++ App.startup.map .callback ++
    [.callback (.typeTitle "Sunset"), .callback (.textFieldDidEndEditing .succeeds),
      .callback (.typeTitle "Storm"), .callback (.textFieldDidEndEditing .throws),
      .callback (.textFieldDidEndEditing .succeeds), .terminate,
      .launch true ⟨320, 240⟩ true] ++ App.startup.map .callback

theorem table_eq_lastWrite_overTwoSessions :
    ∃ history d, play (@Device.step DateFormatter.plain) Device.threePhotos overTwoSessions =
        some (history, d) ∧
      d.table = lastWrite (fun _ => none)
        [("c", some (App.noteOf "c" "Sunset" Constants.defaultNoteDetail))] := by
  have plays : play (@Device.step DateFormatter.plain) Device.threePhotos overTwoSessions =
      some (_, _) := rfl
  refine ⟨_, _, plays, ?_⟩
  exact (@Device.table_eq_lastWrite DateFormatter.plain _ _ _ rfl (run_of_play plays)).1

theorem readsDisk_of_run_overTwoSessions :
    ∃ history d, play (@Device.step DateFormatter.plain) Device.threePhotos overTwoSessions =
        some (history, d) ∧
      Device.threw.Along (fun threw t => threw = false → Device.ReadsDisk t) history := by
  have plays : play (@Device.step DateFormatter.plain) Device.threePhotos overTwoSessions =
      some (_, _) := rfl
  exact ⟨_, _, plays, @Device.readsDisk_of_run DateFormatter.plain _ _ _ rfl (run_of_play plays)⟩

/-- A commit throws, and the next edit ends. -/
def throwThenSave : List Event :=
  App.startup ++ [.typeTitle "Storm", .textFieldDidEndEditing .throws,
    .textFieldDidEndEditing .succeeds]

theorem raised_iff_of_run_throwThenSave :
    ∃ history s, Launch.threePhotos.app.Plays throwThenSave history s ∧
      App.thrownSave.Along (fun thrown t =>
        t.after.raised.isSome ↔ thrown = true ∧ (t.before.savesNote t.event).isSome)
        history := by
  have plays : Launch.threePhotos.app.Plays throwThenSave _ _ := rfl
  exact ⟨_, _, plays, @App.raised_iff_of_run DateFormatter.plain _ _ _ _ rfl plays.run⟩

end Phonotes
