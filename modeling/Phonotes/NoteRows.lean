import Phonotes.Library.Simulation
import Phonotes.ObjectStore
import Phonotes.Runs

/-!
The note table as the rows of the object store.

`Realm.swift` and `RLMRealm.mm` put the store's transactions and objects in the hands
of the app. `SharedRealm.notes` reads the rows as the map of `Realm.lean`, and the
results say that the app cannot tell them apart: `write` with a block that adds a note
does to the map what `Realm.write` does, and every run of the app is carried out by a
run of the store.
-/

namespace Phonotes

open Transaction KeyedRows TransitionSystem

/-! ### Reading rows -/

namespace PropertyValue

def getString : PropertyValue → String
  | .string value => value
  | _ => ""

def getBool : PropertyValue → Bool
  | .bool value => value
  | _ => false

def getOptionalString : PropertyValue → Option String
  | .string value => some value
  | _ => none

end PropertyValue

/-- The note that an accessor reads from its row, property by property. -/
def Note.ofRow (cells : Row) : Note where
  photoId := (cells photoIdProperty.tableColumn).getString
  hasNote := (cells hasNoteProperty.tableColumn).getBool
  noteTitle := (cells noteTitleProperty.tableColumn).getOptionalString
  noteDetail := (cells noteDetailProperty.tableColumn).getOptionalString

theorem PropertyValue.getOptionalString_elim (value : Option String) :
    (value.elim .null .string : PropertyValue).getOptionalString = value := by
  cases value <;> rfl

/-- What was written property by property is read back. -/
theorem Note.ofRow_eq {note : Note} {cells : Row}
    (wrote : ∀ property ∈ objectSchema.persistedProperties,
      cells property.tableColumn = note.propertyValue property) : ofRow cells = note := by
  have noteTitle := congrArg PropertyValue.getOptionalString
    (wrote noteTitleProperty (by simp [objectSchema]))
  have noteDetail := congrArg PropertyValue.getOptionalString
    (wrote noteDetailProperty (by simp [objectSchema]))
  simp only [ofRow, wrote photoIdProperty (by simp [objectSchema]),
    wrote hasNoteProperty (by simp [objectSchema]),
    noteTitle.trans (PropertyValue.getOptionalString_elim note.noteTitle),
    noteDetail.trans (PropertyValue.getOptionalString_elim note.noteDetail)]
  rfl

/-- The key of a note's row. -/
abbrev photoKey : Row → PropertyValue := Object.key Note.photoIdProperty

/-- The map that the rows are. -/
def Table.notes (self : Table) : NoteTable := fun photoId =>
  (lookup photoKey self.rows (.string photoId)).map Note.ofRow

theorem Table.notes_of_upsert {before after : Table} {cells : Row} {note : Note}
    (upsert : Upsert photoKey cells before.rows after.rows)
    (wrote : ∀ property ∈ Note.objectSchema.persistedProperties,
      cells property.tableColumn = note.propertyValue property) :
    after.notes = Function.update before.notes note.photoId (some note) := by
  have isKey : photoKey cells = .string note.photoId :=
    wrote Note.photoIdProperty (by simp [Note.objectSchema])
  funext photoId
  unfold Table.notes
  rw [upsert.lookup_eq, isKey, Function.update_apply, Function.update_apply]
  by_cases same : photoId = note.photoId
  · rw [if_pos same, if_pos (congrArg PropertyValue.string same), Option.map_some,
      Note.ofRow_eq wrote]
  · have apart : (.string photoId : PropertyValue) ≠ .string note.photoId := by
      intro equal
      exact same (PropertyValue.string.inj equal)
    rw [if_neg same, if_neg apart]

namespace SharedRealm

/-- The app's Realm that this one is. -/
def notes (self : SharedRealm) : Realm := self.group.map Table.notes

/-! ### RLMRealm and Realm.swift -/

/-- `RLMAddObjectToRealm(object, realm, updatePolicy)`, for a note that is neither managed
nor observed. The row is that of the note's accessor from then on. -/
def addObject (self : SharedRealm) (note : Note) (updatePolicy : UpdatePolicy) :
    Except NSException SharedRealm :=
  if self.isInTransaction then
    match Object.create Note.accessorContext self Note.objectSchema note
      (updatePolicy ≠ .error) (updatePolicy = .updateChanged) none with
    | (realm, .ok _) => .ok realm
    | (_, .error e) => .error ⟨e.what⟩
  else .error ⟨"Can only add, remove, or create objects in a Realm in a write transaction - call beginWriteTransaction on an RLMRealm instance first."⟩

/-- `add(_:update:)` -/
def add (self : SharedRealm) (note : Note) (update : UpdatePolicy) :
    Except NSException SharedRealm :=
  if update ≠ .error ∧ Note.objectSchema.primaryKeyProperty = none then
    .error ⟨"'" ++ Note.objectSchema.name ++ "' does not have a primary key and can not be updated"⟩
  else self.addObject note update

/-- `object(ofType: Note.self, forPrimaryKey:)`: an accessor, known by its row. -/
def object (self : SharedRealm) (key : String) : Except NSException (Option Nat) :=
  match Object.getForPrimaryKey self Note.objectSchema (.string key) with
  | .ok row => .ok row
  | .error e => .error ⟨e.what⟩

/-- What `write` leaves behind. -/
structure Written (τ : Type*) where
  realm : SharedRealm
  state : τ
  threw : Bool

/-- `write(_:)`. The block may raise, or throw an error (the `Bool`); then the transaction
is cancelled, unless the block has ended it, and the error thrown on. -/
def write {τ : Type*} (self : SharedRealm) (commit : CommitOutcome)
    (block : SharedRealm → τ → Except NSException (SharedRealm × τ × Bool)) (state : τ) :
    Except NSException (Written τ) :=
  match self.beginTransaction with
  | .error e => .error ⟨e.what⟩
  | .ok realm =>
      match block realm state with
      | .error exception => .error exception
      | .ok (realm, state, true) =>
          if realm.isInTransaction then
            match realm.cancelTransaction with
            | .ok realm => .ok ⟨realm, state, true⟩
            | .error e => .error ⟨e.what⟩
          else .ok ⟨realm, state, true⟩
      | .ok (realm, state, false) =>
          if realm.isInTransaction then
            match realm.commitTransaction commit with
            | .ok realm => .ok ⟨realm, state, false⟩
            | .error _ => .ok ⟨realm, state, true⟩
          else .ok ⟨realm, state, false⟩

/-- What an accessor of this row reads. -/
def read (self : SharedRealm) (row : Nat) : Option Note :=
  (self.group.current.rows[row]?).map Note.ofRow

/-! ### Looking a note up -/

theorem object_eq (self : SharedRealm) (photoId : String) :
    self.object photoId =
      .ok (findFirst photoKey self.group.current.rows (.string photoId)) := by
  have isPrimary : Note.objectSchema.primaryKeyProperty = some Note.photoIdProperty := rfl
  simp only [object, Object.getForPrimaryKey, isPrimary, Object.getForPrimaryKeyImpl,
    reduceCtorEq, decide_false, Bool.false_and, Bool.false_eq_true, if_false]
  rfl

/-- The accessor that is found for a photo reads the map's note of it, and none is found
where the map has none. -/
theorem object_read (self : SharedRealm) (photoId : String) :
    (self.object photoId).map (fun row => row.bind self.read) =
      .ok (self.notes.current photoId) := by
  rw [object_eq, notes, Versioned.current_map]
  simp only [Except.map, Table.notes, read]
  cases found : findFirst photoKey self.group.current.rows (.string photoId) with
  | none =>
      have absent := lookup_eq_none_iff.mpr (findFirst_eq_none_iff.mp found)
      rw [absent]
      rfl
  | some row =>
      rw [lookup_eq_getElem? found]
      rfl

/-! ### Adding a note -/

section Add

variable {self : SharedRealm} {note : Note} {updatePolicy : UpdatePolicy}

/-- A note that is created with an update policy is the map's at its key, and nothing else
of the map changes. -/
theorem create_of_transaction (settled : self.isInMigration = false) {before : Table}
    (opened : self.group.working = some before) (updates : updatePolicy ≠ .error) :
    ∃ realm row, Object.create Note.accessorContext self Note.objectSchema note
        (updatePolicy ≠ .error) (updatePolicy = .updateChanged) none = (realm, .ok row) ∧
      realm.isInMigration = false ∧ realm.notes = self.notes.add note := by
  obtain ⟨after, cells, row, created, -, -, upsert, wrote⟩ :=
    Object.create_of_complete Note.valid_objectSchema settled opened (Note.complete note)
      (updatePolicy = .updateChanged) none
  refine ⟨{ self with group := ⟨self.group.committed, some after⟩ }, row, ?_, settled, ?_⟩
  · rw [decide_eq_true updates]
    exact created
  · simp only [notes, Versioned.map, Option.map_some, Table.notes_of_upsert upsert wrote,
      Realm.add, Versioned.modify, opened]

theorem add_of_transaction (settled : self.isInMigration = false) {before : Table}
    (opened : self.group.working = some before) (updates : updatePolicy ≠ .error) :
    ∃ realm, self.add note updatePolicy = .ok realm ∧ realm.isInMigration = false ∧
      realm.notes = self.notes.add note := by
  obtain ⟨realm, row, created, settledNow, seen⟩ :=
    @create_of_transaction self note _ settled _ opened updates
  have hasPrimaryKey : Note.objectSchema.primaryKeyProperty ≠ none := by decide
  have inTransaction : self.isInTransaction = true := by simp [isInTransaction, opened]
  refine ⟨realm, ?_, settledNow, seen⟩
  simp only [add, hasPrimaryKey, and_false, if_false, addObject, inTransaction, if_true,
    created]

end Add

/-! ### Writing a note -/

/-- What the app sees of what `write` leaves behind. -/
def Written.notes {τ : Type*} (self : Written τ) : Realm.Written τ :=
  ⟨self.realm.notes, self.state, self.threw⟩

/-- The block of a save: the note is added, and the caller's state goes on from the Realm
that has it. -/
def addBlock {τ : Type*} (note : Note) (after : Realm → τ → τ) (realm : SharedRealm) (state : τ) :
    Except NSException (SharedRealm × τ × Bool) :=
  (realm.add note .updateAll).map fun realm => (realm, after realm.notes state, false)

theorem isInTransaction_notes (self : SharedRealm) :
    self.notes.isInWriteTransaction = self.isInTransaction := by
  simp [notes, Versioned.map, Realm.isInWriteTransaction, isInTransaction]

/-- A commit is seen as one. -/
theorem commitTransaction_notes {self : SharedRealm} (opened : self.isInTransaction = true)
    (commit : CommitOutcome) :
    (self.commitTransaction commit).toOption.map notes = self.notes.commitWrite commit := by
  cases commit with
  | succeeds =>
      simp only [commitTransaction, opened, if_true, Except.toOption, Option.map_some,
        Realm.commitWrite, notes, Versioned.commit_map]
  | throws => simp [commitTransaction, opened, Except.toOption, Realm.commitWrite]

theorem beginTransaction_of_idle {self : SharedRealm} (idle : self.group.Idle) :
    self.beginTransaction =
      .ok { self with group := ⟨self.group.committed, some self.group.committed⟩ } := by
  simp only [beginTransaction, Versioned.begin_of_idle idle]

/-- A save that reaches the object store does to the map what the app takes it to do:
the same table is committed or left open, the same state handed on, the same thrown. -/
theorem write_addBlock {τ : Type*} {self : SharedRealm} (settled : self.isInMigration = false)
    (note : Note) (after : Realm → τ → τ) (commit : CommitOutcome) (state : τ) :
    (self.write commit (addBlock note after) state).map Written.notes =
      self.notes.write commit
        (fun realm state => (realm.add note, after (realm.add note) state)) state := by
  by_cases idle : self.group.Idle
  · let begun : SharedRealm :=
      { self with group := ⟨self.group.committed, some self.group.committed⟩ }
    have begins : self.beginTransaction = .ok begun := beginTransaction_of_idle idle
    have idleNotes : self.notes.Idle := Versioned.idle_map_iff.mpr idle
    have seen : self.notes.beginWrite = .ok begun.notes := by
      simp only [Realm.beginWrite, Versioned.begin_of_idle idleNotes]
      rfl
    obtain ⟨realm, added, -, same⟩ : ∃ realm, begun.add note .updateAll = .ok realm ∧
        realm.isInMigration = false ∧ realm.notes = begun.notes.add note :=
      add_of_transaction settled rfl (by decide)
    have opened : realm.isInTransaction = true := by
      rw [← isInTransaction_notes, same]
      rfl
    simp only [write, begins, addBlock, added, Except.map, opened, if_true, Realm.write, seen,
      ← same, isInTransaction_notes, ← commitTransaction_notes opened commit]
    cases realm.commitTransaction commit with
    | error e => rfl
    | ok realm => rfl
  · have opened : ¬ self.notes.Idle := fun h => idle (Versioned.idle_map_iff.mp h)
    rw [Realm.write_of_not_idle opened]
    simp only [write, beginTransaction, Versioned.begin_of_not_idle idle]
    rfl

/-! ### A save as events of the store -/

/-- What a save does to the map, by the way its commit goes. -/
def afterSave (realm : Realm) (note : Note) : CommitOutcome → Realm
  | .succeeds => ⟨Function.update realm.committed note.photoId (some note), none⟩
  | .throws =>
      ⟨realm.committed, some (Function.update realm.committed note.photoId (some note))⟩

/-- A Realm with an open transaction refuses to begin another. -/
theorem play_begin_of_not_idle {self : SharedRealm} (opened : ¬ self.group.Idle) :
    ∃ steps, play (step Note.accessorContext Note.objectSchema) self [.beginTransaction] =
      some (steps, self) := by
  refine ⟨_, play_singleton ?_⟩
  simp [step, beginTransaction, Versioned.begin_of_not_idle opened, Except.toOption]

theorem step_commitTransaction {self : SharedRealm} (opened : self.isInTransaction = true)
    (commit : CommitOutcome) :
    ∃ realm, self.step Note.accessorContext Note.objectSchema (.commitTransaction commit) =
        some realm ∧
      realm.isInMigration = self.isInMigration ∧
      realm.notes = (self.notes.commitWrite commit).getD self.notes := by
  refine ⟨_, rfl, ?_, ?_⟩
  · cases commit <;> simp [commitTransaction, opened, Except.toOption]
  · rw [← commitTransaction_notes opened]
    cases self.commitTransaction commit with
    | error e => rfl
    | ok realm => rfl

theorem play_save_of_idle {self : SharedRealm} (settled : self.isInMigration = false)
    (idle : self.group.Idle) (note : Note) (commit : CommitOutcome) :
    ∃ steps realm, play (step Note.accessorContext Note.objectSchema) self
        [.beginTransaction, .create note .updateAll, .commitTransaction commit] =
          some (steps, realm) ∧
      realm.isInMigration = false ∧ realm.notes = afterSave self.notes note commit := by
  let begun : SharedRealm :=
    { self with group := ⟨self.group.committed, some self.group.committed⟩ }
  have begins : self.step Note.accessorContext Note.objectSchema .beginTransaction =
      some begun := by
    simp [step, beginTransaction_of_idle idle, Except.toOption, begun]
  obtain ⟨added, row, created, settledNow, seen⟩ :=
    @create_of_transaction begun note .updateAll settled _ rfl (by decide)
  have creates : begun.step Note.accessorContext Note.objectSchema (.create note .updateAll) =
      some added := by
    simp only [step, created]
  have opened : added.isInTransaction = true := by
    rw [← isInTransaction_notes, seen]
    rfl
  obtain ⟨realm, commits, migrates, now⟩ := step_commitTransaction opened commit
  have played := play_append_of_play (play_singleton begins)
    (play_append_of_play (play_singleton creates) (play_singleton commits))
  refine ⟨_, realm, played, migrates.trans settledNow, ?_⟩
  rw [now, seen]
  cases commit <;> rfl

/-- A first note, whose commit fails: it is in the map that the app reads, and not on disk. -/
theorem write_addBlock_emptyTable :
    let realm : SharedRealm := ⟨⟨Note.emptyTable, none⟩, false⟩
    let note : Note := { photoId := "a", hasNote := true, noteTitle := some "Sunset" }
    realm.isInMigration = false ∧
      (realm.write .throws (addBlock note fun _ saves => saves + 1) 0).map Written.notes =
        realm.notes.write .throws
          (fun realm saves => (realm.add note, saves + 1)) 0 :=
  ⟨rfl, write_addBlock rfl _ (fun _ saves => saves + 1) .throws 0⟩

end SharedRealm

/-! ### Runs of the app on the store -/

namespace App

variable {s s' : App} {e : Event}

/-- The events of the store that a callback stands for: those of a save that finds a
Realm, which end with the first if a transaction is open already. -/
def storeEvents (s : App) (e : Event) : List (StoreEvent Note) :=
  match s.noteManager.realm, e.endsEditing, s.savesNote e with
  | some realm, some commit, some call =>
      .beginTransaction ::
        if realm.Idle then [.create call.note .updateAll, .commitTransaction commit] else []
  | _, _, _ => []

/-- The Realm after a callback: as it was, or as a save leaves it. -/
theorem realm_of_stepped [DateFormatter] (stepped : Stepped s e s') {realm : Realm}
    (held : s.noteManager.realm = some realm) :
    (s'.noteManager.realm = some realm ∧
        (s.storeEvents e = [] ∨ ¬ realm.Idle ∧ s.storeEvents e = [.beginTransaction])) ∨
      ∃ note commit, realm.Idle ∧
        s'.noteManager.realm = some (SharedRealm.afterSave realm note commit) ∧
        s.storeEvents e =
          [.beginTransaction, .create note .updateAll, .commitTransaction commit] := by
  cases ended : e.endsEditing with
  | none =>
      left
      rw [noteManager_of_stepped ended stepped]
      exact ⟨held, Or.inl (by simp [storeEvents, ended])⟩
  | some commit =>
      have events {photo : Photo} (selected : s.viewModel.currentSelectedPhoto = some photo) :
          s.storeEvents e = .beginTransaction ::
            if realm.Idle then [.create (s.screenCall photo.photoId).note .updateAll,
              .commitTransaction commit] else [] := by
        simp [storeEvents, held, ended, savesNote, App.currentPhotoId, selected]
      cases stepped with
      | endedEditing same saved =>
          obtain rfl := Option.some.inj (ended.symm.trans same)
          cases saved with
          | noPhoto unselected =>
              refine Or.inl ⟨held, Or.inl ?_⟩
              simp [storeEvents, held, ended, savesNote, App.currentPhotoId, unselected]
          | noRealm _ closed => cases held.symm.trans closed
          | raised selected holds opened =>
              obtain rfl := Option.some.inj (held.symm.trans holds)
              refine Or.inl ⟨rfl, Or.inr ⟨opened, ?_⟩⟩
              rw [events selected, if_neg opened]
          | @committed photo _ selected holds idle =>
              obtain rfl := Option.some.inj (held.symm.trans holds)
              refine Or.inr ⟨(s.screenCall photo.photoId).note, .succeeds, idle, ?_, ?_⟩
              · rw [← saveNoteCall_editedViewModel]
                rfl
              · rw [events selected, if_pos idle]
          | @threw photo _ selected holds idle =>
              obtain rfl := Option.some.inj (held.symm.trans holds)
              refine Or.inr ⟨(s.screenCall photo.photoId).note, .throws, idle, ?_, ?_⟩
              · rw [← saveNoteCall_editedViewModel]
                rfl
              · rw [events selected, if_pos idle]
      | _ => cases ended

/-- The app on its map is carried out by the object store on its rows. -/
def onStore [DateFormatter] :
    Simulation App.step (SharedRealm.step Note.accessorContext Note.objectSchema) where
  Rel s realm := realm.isInMigration = false ∧ s.noteManager.realm = some realm.notes
  Allowed _ := True
  emits := storeEvents
  carried {s s' e realm} _ related taken := by
    obtain ⟨settled, held⟩ := related
    rcases realm_of_stepped (stepped_of_step taken).2 held with
      ⟨same, silent | ⟨opened, events⟩⟩ | ⟨note, commit, idle, now, events⟩
    · rw [silent]
      exact ⟨[], realm, rfl, settled, same⟩
    · rw [events]
      obtain ⟨steps, played⟩ := SharedRealm.play_begin_of_not_idle
        fun idle => opened (Versioned.idle_map_iff.mpr idle)
      exact ⟨steps, realm, played, settled, same⟩
    · rw [events]
      obtain ⟨steps, realm', played, settledNow, seen⟩ :=
        SharedRealm.play_save_of_idle settled (Versioned.idle_map_iff.mp idle) note commit
      exact ⟨steps, realm', played, settledNow, seen ▸ now⟩

/-- Every run of the app from a table of rows is carried out by the object store: the app's
map is what the rows say, a look-up finds the row of the note it is to read, and no photo
gets a second row or its row another place. -/
theorem rows_of_run [DateFormatter] {launch : Launch} {table : Table}
    {history : List (Transition App Event)} (run : launch.Run history s)
    (opens : launch.opened = some table.notes)
    (distinct : (SharedRealm.keys Note.photoIdProperty table).Nodup) :
    ∃ steps realm,
      play (SharedRealm.step Note.accessorContext Note.objectSchema) ⟨⟨table, none⟩, false⟩
        (onStore.events history) = some (steps, realm) ∧
      s.noteManager.realm = some realm.notes ∧
      (∀ photoId, (realm.object photoId).map (fun row => row.bind realm.read) =
        .ok (realm.notes.current photoId)) ∧
      (SharedRealm.keys Note.photoIdProperty realm.group.current).Nodup ∧
      SharedRealm.keys Note.photoIdProperty table <+:
        SharedRealm.keys Note.photoIdProperty realm.group.committed := by
  have related : onStore.Rel launch.app ⟨⟨table, none⟩, false⟩ := by
    refine ⟨rfl, ?_⟩
    change launch.opened.map _ = _
    rw [opens]
    rfl
  obtain ⟨steps, realm, played, -, held⟩ := onStore.play_of_run related run fun _ _ => trivial
  have keyed := SharedRealm.keyed_of_run Note.valid_objectSchema (run_of_play played) rfl rfl
    distinct
  exact ⟨steps, realm, played, held, realm.object_read, keyed.distinct, keyed.stays⟩

/-- A note is saved, the commit of its second version throws, and a third is refused. -/
def savedOverAndOver : List Event :=
  startup ++ [.typeTitle "Sunset", .textFieldDidEndEditing .succeeds, .typeTitle "Storm",
    .textFieldDidEndEditing .throws, .textFieldDidEndEditing .succeeds]

theorem rows_of_run_savedOverAndOver :
    ∃ history s, Launch.threePhotos.app.Plays savedOverAndOver history s ∧
      ∃ steps realm,
        play (SharedRealm.step Note.accessorContext Note.objectSchema)
          ⟨⟨Note.emptyTable, none⟩, false⟩ ((@onStore DateFormatter.plain).events history) =
            some (steps, realm) ∧
        s.noteManager.realm = some realm.notes ∧
        (∀ photoId, (realm.object photoId).map (fun row => row.bind realm.read) =
          .ok (realm.notes.current photoId)) ∧
        (SharedRealm.keys Note.photoIdProperty realm.group.current).Nodup ∧
        SharedRealm.keys Note.photoIdProperty Note.emptyTable <+:
          SharedRealm.keys Note.photoIdProperty realm.group.committed := by
  have plays : Launch.threePhotos.app.Plays savedOverAndOver _ _ := rfl
  exact ⟨_, _, plays,
    @rows_of_run _ DateFormatter.plain _ _ _ plays.run rfl List.nodup_nil⟩

end App

end Phonotes
