import Mathlib.Logic.Function.Basic
import Phonotes.Library.Transaction
import Phonotes.Platform

/-!
The note table and its Realm.

`Note` is a Realm object whose primary key is `photoId`. An object that Realm
hands out, or that was just added, is *managed*: its properties are read from
the table at the time of the access. So a managed note is only its key here
(`ManagedNote`), and reading one takes the Realm.
-/

namespace Phonotes

open Transaction

/-- One row of the note table. -/
structure Note where
  photoId : String := ""
  hasNote : Bool := false
  noteTitle : Option String := none
  noteDetail : Option String := none
  deriving DecidableEq, Repr

/-- The table, by primary key. -/
abbrev NoteTable := String → Option Note

abbrev Realm := Versioned NoteTable

/-- A managed `Note`, known by its primary key. -/
structure ManagedNote where
  photoId : String
  deriving DecidableEq, Repr

/-- An Objective-C exception. Swift's `catch` does not catch it: the app ends. -/
structure NSException where
  reason : String
  deriving DecidableEq, Repr

/-- Whether the commit that ends a write transaction goes through or throws
(disk full, I/O error). -/
inductive CommitOutcome where
  | succeeds
  | throws
  deriving DecidableEq, Repr

namespace Realm

/-- `object(ofType: Note.self, forPrimaryKey:)` -/
def object (self : Realm) (key : String) : Option ManagedNote :=
  (self.current key).map fun _ => ⟨key⟩

def isInWriteTransaction (self : Realm) : Bool := self.working.isSome

def beginWrite (self : Realm) : Except NSException Realm :=
  match self.begin with
  | some realm => .ok realm
  | none => .error ⟨"The Realm is already in a write transaction"⟩

/-- `add(note, update: .all)`: the row with the note's key is overwritten, or
inserted. -/
def add (self : Realm) (note : Note) : Realm :=
  self.modify fun table => Function.update table note.photoId (some note)

/-- `commitWrite()`: an error leaves the transaction as it is. -/
def commitWrite (self : Realm) : CommitOutcome → Option Realm
  | .succeeds => some self.commit
  | .throws => none

/-- What `write` leaves behind: the Realm, the caller's state, and whether an
error was thrown. -/
structure Written (τ : Type*) where
  realm : Realm
  state : τ
  threw : Bool

/-- `write(_:)`: begin, block, commit. The `catch` around the block is not
reached, as the app's block throws no Swift error; the error of a failing commit
is thrown on with the transaction still open. -/
def write {τ : Type*} (self : Realm) (commit : CommitOutcome) (block : Realm → τ → Realm × τ)
    (state : τ) : Except NSException (Written τ) :=
  match self.beginWrite with
  | .error exception => .error exception
  | .ok realm =>
      let (realm, state) := block realm state
      if realm.isInWriteTransaction then
        match realm.commitWrite commit with
        | some realm => .ok ⟨realm, state, false⟩
        | none => .ok ⟨realm, state, true⟩
      else .ok ⟨realm, state, false⟩

/-- A block that adds one note, on a Realm with no open transaction. -/
theorem write_add {τ : Type*} {self : Realm} (idle : self.Idle) (note : Note)
    (after : Realm → τ → τ) (commit : CommitOutcome) (state : τ) :
    self.write commit (fun realm state => (realm.add note, after (realm.add note) state)) state =
      let table := Function.update self.committed note.photoId (some note)
      .ok ⟨match commit with
          | .succeeds => ⟨table, none⟩
          | .throws => ⟨self.committed, some table⟩,
        after ⟨self.committed, some table⟩ state, commit = .throws⟩ := by
  simp only [write, beginWrite, Versioned.begin_of_idle idle, add, Versioned.modify_open,
    isInWriteTransaction, Option.isSome_some, if_true]
  cases commit with
  | succeeds => rfl
  | throws => rfl

/-- Realm allows one write transaction at a time: on an open one, `write` raises
and neither runs its block nor returns. -/
theorem write_of_not_idle {τ : Type*} {self : Realm} (opened : ¬ self.Idle)
    (commit : CommitOutcome) (block : Realm → τ → Realm × τ) (state : τ) :
    self.write commit block state =
      .error ⟨"The Realm is already in a write transaction"⟩ := by
  simp only [write, beginWrite, Versioned.begin_of_not_idle opened]

end Realm

end Phonotes
