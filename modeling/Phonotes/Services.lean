import Phonotes.Realm

/-!
`NoteManager.swift`, `Photo.swift` and `PhotoManager.swift`.

There is one note manager, shared by the controller, the view model and the
photo manager, so it is passed to whoever uses it and never stored twice.
-/

namespace Phonotes

/-! ### NoteManager -/

/-- The arguments of one call of `NoteManager.saveNote`. -/
structure SaveNoteCall where
  photoId : String
  noteTitle : Option String
  noteDetail : Option String
  deriving DecidableEq, Repr

/-- `saveNoteCalls` records the calls of `saveNote`, oldest first. The code does
not read it. -/
structure NoteManager where
  realm : Option Realm
  saveNoteCalls : List SaveNoteCall := []

namespace NoteManager

/-- `init`: the default Realm with the table it holds, or `nil` when opening it
failed. -/
def init (opened : Option NoteTable) : NoteManager :=
  { realm := opened.map fun table => { committed := table } }

def getNote (self : NoteManager) (photoId : String) : Option ManagedNote :=
  self.realm.bind fun realm => realm.object photoId

/-- The row as this process sees it, an uncommitted write included. -/
def row (self : NoteManager) (photoId : String) : Option Note :=
  self.realm.bind fun realm => realm.current photoId

/-- The table as it is on disk, uncommitted writes left out. -/
def stored (self : NoteManager) : NoteTable := fun photoId =>
  self.realm.bind fun realm => realm.committed photoId

/-- Read a managed note. Rows are never deleted, so the default is only there to
make this total. -/
def read (self : NoteManager) (note : ManagedNote) : Note :=
  (self.row note.photoId).getD {}

/-- `noteTitle?.isEmpty ?? true` -/
def isEmptyOrNil (text : Option String) : Bool := (text.map String.isEmpty).getD true

/-- The unmanaged object that `saveNote` fills in. -/
def newNote (photoId : String) (noteTitle noteDetail : Option String) : Note :=
  { photoId
    hasNote := !(isEmptyOrNil noteTitle && isEmptyOrNil noteDetail)
    noteTitle
    noteDetail }

/-- `saveNote(photoId:noteTitle:noteDetail:completion:)`. The completion acts on
the caller's state; it sees the note manager as it is when it is called, which
on the path that succeeds is inside the write block, before the commit. The
last component is the exception that ended the call, if one did. -/
def saveNote {τ : Type*} (self : NoteManager) (photoId : String)
    (noteTitle noteDetail : Option String) (commit : CommitOutcome)
    (completion : Option ManagedNote → NoteManager → τ → τ) (state : τ) :
    NoteManager × τ × Option NSException :=
  let self : NoteManager :=
    { self with saveNoteCalls := self.saveNoteCalls ++ [⟨photoId, noteTitle, noteDetail⟩] }
  let note := newNote photoId noteTitle noteDetail
  match self.realm with
  | none => (self, state, none)
  | some realm =>
      let block := fun (realm : Realm) (state : τ) =>
        let realm := realm.add note
        (realm, completion (some ⟨photoId⟩) { self with realm := some realm } state)
      match realm.write commit block state with
      | .error exception => (self, state, some exception)
      | .ok written =>
          let self : NoteManager := { self with realm := some written.realm }
          if written.threw then (self, completion none self written.state, none)
          else (self, written.state, none)

/-- The manager once the call has been entered, with `realm` in place of its
Realm. -/
def afterCall (self : NoteManager) (call : SaveNoteCall) (realm : Option Realm) : NoteManager :=
  { realm, saveNoteCalls := self.saveNoteCalls ++ [call] }

@[simp] theorem afterCall_realm (self : NoteManager) (call : SaveNoteCall)
    (realm : Option Realm) : (self.afterCall call realm).realm = realm := rfl

@[simp] theorem afterCall_saveNoteCalls (self : NoteManager) (call : SaveNoteCall)
    (realm : Option Realm) :
    (self.afterCall call realm).saveNoteCalls = self.saveNoteCalls ++ [call] := rfl

section SaveNote

variable {τ : Type*} {self : NoteManager} {realm : Realm} (photoId : String)
  (noteTitle noteDetail : Option String)
  (completion : Option ManagedNote → NoteManager → τ → τ) (state : τ)

/-- Without a Realm nothing happens: no write, no completion, no error. -/
theorem saveNote_of_no_realm (closed : self.realm = none) (commit : CommitOutcome) :
    self.saveNote photoId noteTitle noteDetail commit completion state =
      (self.afterCall ⟨photoId, noteTitle, noteDetail⟩ none, state, none) := by
  simp only [saveNote, closed, afterCall]

/-- On a Realm whose transaction was left open, beginning another raises. -/
theorem saveNote_of_not_idle (held : self.realm = some realm) (opened : ¬ realm.Idle)
    (commit : CommitOutcome) :
    self.saveNote photoId noteTitle noteDetail commit completion state =
      (self.afterCall ⟨photoId, noteTitle, noteDetail⟩ (some realm), state,
        some ⟨"The Realm is already in a write transaction"⟩) := by
  simp only [saveNote, held, afterCall, Realm.write_of_not_idle opened]

variable (self realm) in
/-- The manager inside the write block, the note added and not committed. -/
def inBlock : NoteManager :=
  self.afterCall ⟨photoId, noteTitle, noteDetail⟩ (some ⟨realm.committed,
    some (Function.update realm.committed photoId (some (newNote photoId noteTitle noteDetail)))⟩)

/-- A save that commits: the completion has run once, inside the block. -/
theorem saveNote_of_commit (held : self.realm = some realm) (idle : realm.Idle) :
    self.saveNote photoId noteTitle noteDetail .succeeds completion state =
      (self.afterCall ⟨photoId, noteTitle, noteDetail⟩ (some
          ⟨Function.update realm.committed photoId (some (newNote photoId noteTitle noteDetail)),
            none⟩),
        completion (some ⟨photoId⟩) (inBlock self realm photoId noteTitle noteDetail) state,
        none) := by
  simp only [saveNote, held]
  rw [Realm.write_add idle (newNote photoId noteTitle noteDetail) (fun realm state =>
    completion (some ⟨photoId⟩)
      { realm := some realm
        saveNoteCalls := self.saveNoteCalls ++ [⟨photoId, noteTitle, noteDetail⟩] } state)]
  rfl

/-- A save whose commit throws: the completion has run twice, and the
transaction is still open. -/
theorem saveNote_of_throw (held : self.realm = some realm) (idle : realm.Idle) :
    let block := inBlock self realm photoId noteTitle noteDetail
    self.saveNote photoId noteTitle noteDetail .throws completion state =
      (block, completion none block (completion (some ⟨photoId⟩) block state), none) := by
  simp only [saveNote, held]
  rw [Realm.write_add idle (newNote photoId noteTitle noteDetail) (fun realm state =>
    completion (some ⟨photoId⟩)
      { realm := some realm
        saveNoteCalls := self.saveNoteCalls ++ [⟨photoId, noteTitle, noteDetail⟩] } state)]
  rfl

end SaveNote

end NoteManager

/-! ### Photo -/

structure Photo where
  photoId : String
  photo : UIImage
  creationDate : Option Date
  asset : PHAsset
  note : Option ManagedNote
  deriving DecidableEq, Repr

namespace Photo

/-- `init`: the note is looked up here, once. -/
def init (photoId : String) (photo : UIImage) (creationDate : Option Date) (asset : PHAsset)
    (noteManager : NoteManager) : Photo :=
  { photoId, photo, creationDate, asset, note := noteManager.getNote photoId }

def getFormattedCreationDate [DateFormatter] (self : Photo) : String :=
  (self.creationDate.map Date.dateFormatterOfMonthDayYear).getD ""

end Photo

/-! ### PhotoManager -/

/-- `fetchResult` is assigned in `init` and never cleared, so it is kept without
its optional: the assets, in the order of the fetch (newest first). -/
structure PhotoManager where
  fetchResult : List PHAsset
  largeImageViewSize : CGSize
  deriving DecidableEq, Repr

namespace PhotoManager

/-- `init`: `library` is what `PHAsset.fetchAssets` returns at that time. -/
def init (largeImageViewSize : CGSize) (library : List PHAsset) : PhotoManager :=
  { fetchResult := library, largeImageViewSize }

/-- `fetchPhoto(atIndexPath:targetSize:)`. `object(at:)` raises past the end; both
callers compare the index with the count first. -/
def fetchPhoto (self : PhotoManager) (noteManager : NoteManager) (indexPath : IndexPath)
    (targetSize : Option CGSize) (reply : ImageReply) : Option Photo :=
  match self.fetchResult[indexPath.item]? with
  | none => none
  | some asset =>
      let size := targetSize.getD self.largeImageViewSize
      (requestImage asset size .aspectFill reply).map fun image =>
        Photo.init asset.localIdentifier image asset.creationDate asset noteManager

/-- `loadLargeImage(asset:completion:)`: the request it makes. The answer comes
later. -/
def loadLargeImage (self : PhotoManager) (asset : PHAsset) : ImageReply → Option UIImage :=
  requestImage asset self.largeImageViewSize .aspectFit

/-- `photoLibraryDidChange(_:)`: `changeDetails` is `nil` for a change that does
not touch this fetch result. -/
def photoLibraryDidChange (self : PhotoManager) (changeDetails : Option (List PHAsset)) :
    PhotoManager :=
  match changeDetails with
  | some fetchResultAfterChanges => { self with fetchResult := fetchResultAfterChanges }
  | none => self

end PhotoManager

end Phonotes
