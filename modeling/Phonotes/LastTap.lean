import Phonotes.Runs

/-!
Whether the last tap wins.

The handler of a load gives its image to whatever photo is current and then
selects the row captured at its own tap. So with loads that overlap, the screen
agrees with the last tap exactly when the load delivered last is of the row
tapped last and the image delivered last since then is of its photo.
-/

namespace Phonotes

open TransitionSystem NoteTakingViewModel

namespace App

/-! ### What has happened since the last tap -/

/-- The last tap: its row, where its load stands among the pending ones, what
that load delivered, and, of all loads delivered since, the asset of the last
image and the row of the last selection. -/
structure LastTap where
  indexPath : IndexPath
  position : Option Nat
  reply : Option ImageReply
  image : Option PHAsset
  selected : Option IndexPath

/-- Where the load at position `k` stands once the one at `i` is gone. -/
def positionAfter (i k : Nat) : Option Nat :=
  if k = i then none else some (if i < k then k - 1 else k)

theorem getElem?_eraseIdx_positionAfter {α : Type*} {l : List α} {i k j : Nat}
    (moved : positionAfter i k = some j) : (l.eraseIdx i)[j]? = l[k]? := by
  unfold positionAfter at moved
  split_ifs at moved with same before
  · obtain rfl := Option.some.inj moved
    rw [List.getElem?_eraseIdx, if_neg (by omega)]
    congr 1
    omega
  · obtain rfl := Option.some.inj moved
    rw [List.getElem?_eraseIdx, if_pos (by omega)]

/-- The tap, after load `i` was delivered. -/
def LastTap.delivered (tap : LastTap) (i : Nat) (load : PendingLoad) (reply : ImageReply) :
    LastTap where
  indexPath := tap.indexPath
  position := tap.position.bind (positionAfter i)
  reply := if tap.position = some i then some reply else tap.reply
  image :=
    match reply with
    | .delivered => some load.asset
    | .nil => tap.image
  selected :=
    match load.completion with
    | .viewWillAppear => tap.selected
    | .didSelectItemAt => some load.indexPath

/-- History: the last tap, read off the events and the loads they answer. -/
def lastTap : Observer App Event (Option LastTap) where
  initial := none
  observe last t :=
    match t.event with
    | .didSelectItemAt indexPath _ _ =>
        some ⟨indexPath, some t.before.pendingLoads.length, none, none, none⟩
    | .largeImageLoaded i reply _ =>
        match t.before.pendingLoads[i]? with
        | some load => last.map fun tap => tap.delivered i load reply
        | none => last
    | _ => last

/-- The transition is a tap in range whose thumbnail is delivered, a delivery, or
a request for a cell or the layout. -/
def TapsOrLoads (t : Transition App Event) : Prop :=
  match t.event with
  | .didSelectItemAt indexPath thumbnail _ =>
      (t.before.viewModel.assetAt indexPath.item).isSome ∧ thumbnail = .delivered
  | .largeImageLoaded _ _ _ => True
  | .cellForItemAt _ _ => True
  | .viewWillLayoutSubviews _ => True
  | _ => False

instance (t : Transition App Event) : Decidable (TapsOrLoads t) := by
  unfold TapsOrLoads
  split <;> infer_instance

section Shows

variable [DateFormatter]

/-- The selection, the current photo and everything on screen belong to the
tapped asset. -/
structure ShowsTap (tap : LastTap) (asset : PHAsset) (s : App) : Prop where
  selectedIndexPath : s.viewModel.selectedIndexPath = tap.indexPath
  currentSelectedPhoto : ∃ photo, s.viewModel.currentSelectedPhoto = some photo ∧
    photo.asset = asset ∧ photo.photoId = asset.localIdentifier
  /-- The large image, or the thumbnail when the large load delivered `nil`. -/
  largePhoto : (∃ size, s.viewModel.largePhoto = some (.requested asset size .aspectFit)) ∨
    tap.reply = some .nil ∧
      ∃ size, s.viewModel.largePhoto = some (.requested asset size .aspectFill)
  largePhotoImageView : s.view.largePhotoImageView = s.viewModel.largePhoto
  creationDateLabel : s.view.creationDateLabel =
    some ((asset.creationDate.map Date.dateFormatterOfMonthDayYear).getD "")
  note : (s.view.noteTitleTextField, s.view.noteDetailTextView) =
    ((NoteManager.shownNote (s.noteManager.row asset.localIdentifier)).1.getD "",
      (NoteManager.shownNote (s.noteManager.row asset.localIdentifier)).2.getD "")

/-- The screen shows the current photo and what it exposes. -/
structure ShowsCurrent (s : App) : Prop where
  largePhoto : s.viewModel.largePhoto = s.viewModel.currentSelectedPhoto.map Photo.photo
  largePhotoImageView : s.view.largePhotoImageView = s.viewModel.largePhoto
  creationDateLabel : s.view.creationDateLabel =
    s.viewModel.currentSelectedPhoto.map Photo.getFormattedCreationDate
  noteTitle : s.view.noteTitleTextField =
    (exposedNote s.noteManager s.viewModel.currentSelectedPhoto).1.getD ""
  noteDetail : s.view.noteDetailTextView =
    (exposedNote s.noteManager s.viewModel.currentSelectedPhoto).2.getD ""

/-- Every delivery puts the current photo on screen. -/
theorem showsCurrent_largeImageLoaded (s : App) (load : PendingLoad) (image : ImageReply)
    (cells : CellReplies) : ShowsCurrent (s.largeImageLoaded load image cells) := by
  have largePhoto : (s.largeImageLoaded load image cells).viewModel.largePhoto =
      (s.loadedViewModel load image).largePhoto := by
    rw [(largeImageLoaded_redrawn s load image cells).frame]
    rfl
  have exposed := largeImageLoaded_eq s.viewModel s.noteManager load.indexPath
    (load.manager.loadLargeImage load.asset image)
  rw [← loadedViewModel] at exposed
  refine ⟨?_, ?_, ?_, ?_, ?_⟩
  · rw [largePhoto, largeImageLoaded_currentSelectedPhoto, exposed]
  · rw [largePhoto, largeImageLoaded_view_eq]
    rfl
  · rw [largeImageLoaded_view_eq, largeImageLoaded_currentSelectedPhoto, exposed]
    rfl
  · rw [largeImageLoaded_view_eq, largeImageLoaded_currentSelectedPhoto,
      largeImageLoaded_noteManager, exposed]
    rfl
  · rw [largeImageLoaded_view_eq, largeImageLoaded_currentSelectedPhoto,
      largeImageLoaded_noteManager, exposed]
    rfl

/-- Requests for cells and the layout change nothing of this. -/
theorem ShowsCurrent.of_redrawn {s : App} {viewModel : NoteTakingViewModel}
    (shows : ShowsCurrent s) (redrawn : Redrawn s.noteManager s.viewModel viewModel) :
    ShowsCurrent { s with viewModel } := by
  obtain ⟨largePhoto, largePhotoImageView, creationDateLabel, noteTitle, noteDetail⟩ := shows
  constructor <;> rw [redrawn.frame] <;> assumption

end Shows

/-! ### The last tap and the state -/

/-- The image of the current photo: the last one delivered since the tap, or
else the thumbnail. -/
def LastTap.Pictures (tap : LastTap) (asset : PHAsset) (image : UIImage) : Prop :=
  match tap.image with
  | some other => ∃ size, image = .requested other size .aspectFit
  | none => ∃ size, image = .requested asset size .aspectFill

section Followed

variable [DateFormatter]

/-- What is known after the last tap, whichever loads were delivered since. -/
structure Followed (tap : LastTap) (asset : PHAsset) (s : App) : Prop where
  library : s.viewModel.assetAt tap.indexPath.item = some asset
  waiting : ∀ k, tap.position = some k →
    ∃ load, s.pendingLoads[k]? = some load ∧ load.completion = .didSelectItemAt
  replied : tap.position = none → tap.reply.isSome
  image : tap.reply = some .delivered → tap.image.isSome
  selected : tap.reply.isSome → tap.selected = some s.viewModel.selectedIndexPath
  current : ∃ photo, s.viewModel.currentSelectedPhoto = some photo ∧ photo.asset = asset ∧
    photo.photoId = asset.localIdentifier ∧ photo.creationDate = asset.creationDate ∧
    photo.note = s.noteManager.getNote asset.localIdentifier ∧ tap.Pictures asset photo.photo
  shows : tap.reply.isSome → ShowsCurrent s

/-- Once no load is pending, the last tap has won exactly when the last selection
is its own and the last image is of its photo. -/
theorem Followed.shows_iff {tap : LastTap} {asset : PHAsset} {s : App}
    (followed : Followed tap asset s) (idle : s.pendingLoads = []) :
    ShowsTap tap asset s ↔
      tap.selected = some tap.indexPath ∧ ∀ other ∈ tap.image, other = asset := by
  have arrived : tap.position = none := by
    cases position : tap.position with
    | none => rfl
    | some k =>
        obtain ⟨load, pending, -⟩ := followed.waiting k position
        simp [idle] at pending
  have replied := followed.replied arrived
  have selected := followed.selected replied
  have shows := followed.shows replied
  obtain ⟨photo, current, isAsset, isId, date, note, pictures⟩ := followed.current
  have largePhoto : s.viewModel.largePhoto = some photo.photo := by
    rw [shows.largePhoto, current, Option.map_some]
  unfold LastTap.Pictures at pictures
  constructor
  · intro wins
    refine ⟨by rw [selected, wins.selectedIndexPath], ?_⟩
    intro other isImage
    rw [Option.mem_def] at isImage
    rw [isImage] at pictures
    obtain ⟨size, isOther⟩ := pictures
    rcases wins.largePhoto with ⟨large, same⟩ | ⟨-, thumbnail, same⟩
    · rw [largePhoto, isOther] at same
      exact (UIImage.requested.inj (Option.some.inj same)).1
    · rw [largePhoto, isOther] at same
      cases same
  · rintro ⟨own, images⟩
    rw [selected, Option.some.injEq] at own
    refine ⟨own, ⟨photo, current, isAsset, isId⟩, ?_, shows.largePhotoImageView, ?_, ?_⟩
    · rw [largePhoto]
      cases isImage : tap.image with
      | some other =>
          rw [isImage] at pictures
          obtain ⟨size, isOther⟩ := pictures
          rw [images other isImage] at isOther
          exact Or.inl ⟨size, congrArg some isOther⟩
      | none =>
          rw [isImage] at pictures
          obtain ⟨size, isThumbnail⟩ := pictures
          refine Or.inr ⟨?_, size, congrArg some isThumbnail⟩
          obtain ⟨reply, isReply⟩ := Option.isSome_iff_exists.mp replied
          cases reply with
          | nil => exact isReply
          | delivered =>
              have delivered := followed.image isReply
              simp [isImage] at delivered
    · rw [shows.creationDateLabel, current, Option.map_some, Photo.getFormattedCreationDate, date]
    · rw [shows.noteTitle, shows.noteDetail, current,
        exposedNote_of_getNote (by rw [note, isId]), isId]

/-- A tap in range starts from its own thumbnail and its own load. -/
theorem followed_startLoad {s : App} {manager : PhotoManager} {asset : PHAsset}
    {indexPath : IndexPath} (found : s.viewModel.assetAt indexPath.item = some asset) :
    Followed ⟨indexPath, some s.pendingLoads.length, none, none, none⟩ asset
      (s.startLoad manager asset indexPath .didSelectItemAt) where
  library := found
  waiting k position := by
    obtain rfl := Option.some.inj position
    exact ⟨⟨manager, asset, indexPath, .didSelectItemAt⟩, by simp [startLoad], rfl⟩
  replied position := by cases position
  image reply := by cases reply
  selected replied := by cases replied
  current := ⟨_, rfl, rfl, rfl, rfl, rfl, _, rfl⟩
  shows replied := by cases replied

/-- Any delivery: the image goes to the current photo, the selection to the row
of the load, and the screen shows what is current. -/
theorem Followed.largeImageLoaded {tap : LastTap} {asset : PHAsset} {s : App}
    (followed : Followed tap asset s) {i : Nat} {load : PendingLoad}
    (pending : s.pendingLoads[i]? = some load) (reply : ImageReply) (cells : CellReplies) :
    Followed (tap.delivered i load reply) asset
      ({ s with pendingLoads := s.pendingLoads.eraseIdx i }.largeImageLoaded load reply
        cells) where
  library := by
    rw [largeImageLoaded_assetAt]
    exact followed.library
  waiting j moved := by
    rw [largeImageLoaded_pendingLoads]
    obtain ⟨k, position, after⟩ := Option.bind_eq_some_iff.mp moved
    obtain ⟨own, waits, completion⟩ := followed.waiting k position
    exact ⟨own, (getElem?_eraseIdx_positionAfter after).trans waits, completion⟩
  replied moved := by
    cases position : tap.position with
    | none => simpa [LastTap.delivered, position] using followed.replied position
    | some k =>
        have gone : positionAfter i k = none := by
          simpa [LastTap.delivered, position] using moved
        have same : k = i := by
          by_contra other
          simp [positionAfter, other] at gone
        simp [LastTap.delivered, position, same]
  image replied := by
    cases reply with
    | delivered => rfl
    | nil =>
        by_cases own : tap.position = some i
        · simp [LastTap.delivered, own] at replied
        · simp only [LastTap.delivered, own, if_false] at replied
          exact followed.image replied
  selected replied := by
    rw [largeImageLoaded_selectedIndexPath]
    cases completion : load.completion with
    | didSelectItemAt => simp only [LastTap.delivered, loadedIndexPath, completion]
    | viewWillAppear =>
        have other : tap.position ≠ some i := by
          intro own
          obtain ⟨load', waits, isTap⟩ := followed.waiting i own
          obtain rfl := Option.some.inj (pending.symm.trans waits)
          simp [completion] at isTap
        simp only [LastTap.delivered, other, if_false] at replied
        simp only [LastTap.delivered, loadedIndexPath, completion]
        exact followed.selected replied
  current := by
    obtain ⟨photo, current, isAsset, isId, date, note, pictures⟩ := followed.current
    rw [largeImageLoaded_currentSelectedPhoto, largeImageLoaded_noteManager, current]
    cases reply with
    | delivered => exact ⟨_, rfl, isAsset, isId, date, note, _, rfl⟩
    | nil => exact ⟨photo, rfl, isAsset, isId, date, note, pictures⟩
  shows _ := showsCurrent_largeImageLoaded _ load reply cells

/-- Requests for cells change nothing of this. -/
theorem Followed.of_redrawn {tap : LastTap} {asset : PHAsset} {s : App}
    {viewModel : NoteTakingViewModel} (followed : Followed tap asset s)
    (redrawn : Redrawn s.noteManager s.viewModel viewModel) :
    Followed tap asset { s with viewModel } where
  library := (redrawn.assetAt _).trans followed.library
  waiting := followed.waiting
  replied := followed.replied
  image := followed.image
  selected replied := by
    rw [redrawn.selectedIndexPath]
    exact followed.selected replied
  current := by
    rw [redrawn.currentSelectedPhoto]
    exact followed.current
  shows replied := (followed.shows replied).of_redrawn redrawn

theorem Followed.laidOut {tap : LastTap} {asset : PHAsset} {s : App}
    (followed : Followed tap asset s) (size : CGSize) :
    Followed tap asset { s with viewModel := s.viewModel.updateThumbnailSize size } :=
  ⟨followed.library, followed.waiting, followed.replied, followed.image, followed.selected,
    followed.current, fun replied =>
      let shows := followed.shows replied
      ⟨shows.largePhoto, shows.largePhotoImageView, shows.creationDateLabel, shows.noteTitle,
        shows.noteDetail⟩⟩

/-- Taps are answered, and the last one is followed. -/
structure Following (last : Option LastTap) (s : App) : Prop where
  hidden : s.view.getAccessButtonIsHidden = true
  followed : ∀ tap, last = some tap → ∃ asset, Followed tap asset s

theorem following_step {s s' : App} {e : Event} {last : Option LastTap}
    (before : Following last s) (allowed : TapsOrLoads ⟨s, e, s'⟩) (taken : s.step e = some s') :
    Following (lastTap.observe last ⟨s, e, s'⟩) s' := by
  obtain ⟨-, stepped⟩ := stepped_of_step taken
  cases stepped with
  | tapIgnored shown => simp [before.hidden] at shown
  | tapUnselectable _ missing => simp [TapsOrLoads, missing] at allowed
  | tapUnfetched _ _ => simp [TapsOrLoads] at allowed
  | tapSelected _ _ found =>
      refine ⟨before.hidden, ?_⟩
      intro tap isLast
      obtain rfl := Option.some.inj isLast
      exact ⟨_, followed_startLoad found⟩
  | @largeImageLoaded i load reply cells pending =>
      constructor
      · rw [largeImageLoaded_view_eq]
        exact before.hidden
      · intro tap isLast
        simp only [lastTap, pending, Option.map_eq_some_iff] at isLast
        obtain ⟨earlier, wasLast, rfl⟩ := isLast
        obtain ⟨asset, followed⟩ := before.followed earlier wasLast
        exact ⟨asset, followed.largeImageLoaded pending reply cells⟩
  | cellForItemAt =>
      refine ⟨before.hidden, ?_⟩
      intro tap isLast
      obtain ⟨asset, followed⟩ := before.followed tap isLast
      exact ⟨asset, followed.of_redrawn (cellForItemAt_redrawn ..)⟩
  | laidOut =>
      refine ⟨before.hidden, ?_⟩
      intro tap isLast
      obtain ⟨asset, followed⟩ := before.followed tap isLast
      exact ⟨asset, followed.laidOut _⟩
  | endedEditing ended _ => cases e <;> cases ended <;> cases allowed
  | _ => cases allowed

/-- From any state with access to the library, in any order of taps and
deliveries: once no load is pending, the last tap has won exactly when the
selection delivered last is of its row and the image delivered last since it is
of its photo. -/
theorem showsTap_iff {start s : App} {history : List (Transition App Event)} {tap : LastTap}
    (hidden : start.view.getAccessButtonIsHidden = true)
    (run : Run App.step start history s) (only : ∀ t ∈ history, TapsOrLoads t)
    (tapped : lastTap.after history = some tap) (idle : s.pendingLoads = []) :
    ∃ asset, s.viewModel.assetAt tap.indexPath.item = some asset ∧
      (ShowsTap tap asset s ↔
        tap.selected = some tap.indexPath ∧ ∀ other ∈ tap.image, other = asset) := by
  have following : Following (lastTap.after history) s :=
    Run.invariant_along (C := fun _ => TapsOrLoads) ⟨hidden, fun tap none => by cases none⟩
      (fun last s e s' allowed before taken => following_step before allowed taken) run
      ((Observer.along_const_iff lastTap).mpr only)
  obtain ⟨asset, followed⟩ := following.followed tap tapped
  exact ⟨asset, followed.library, followed.shows_iff idle⟩

end Followed

/-- Two taps, the loads delivered in order. -/
def tapsInOrder : List Event :=
  [.didSelectItemAt ⟨0⟩ .delivered ⟨.delivered, .delivered⟩,
    .didSelectItemAt ⟨1⟩ .delivered ⟨.delivered, .delivered⟩,
    .largeImageLoaded 0 .delivered ⟨.delivered, .delivered⟩,
    .largeImageLoaded 0 .nil ⟨.delivered, .delivered⟩]

theorem showsTap_iff_tapsInOrder :
    ∃ history s tap, thirdShown.Plays tapsInOrder history s ∧
      lastTap.after history = some tap ∧
      ∃ asset, s.viewModel.assetAt tap.indexPath.item = some asset ∧
        (@ShowsTap DateFormatter.plain tap asset s ↔
          tap.selected = some tap.indexPath ∧ ∀ other ∈ tap.image, other = asset) := by
  have plays : thirdShown.Plays tapsInOrder _ _ := rfl
  exact ⟨_, _, _, plays, rfl,
    @showsTap_iff DateFormatter.plain _ _ _ _ rfl plays.run (by decide) rfl rfl⟩

/-- Two taps, the load of the second delivered first. -/
def tapsOutOfOrder : List Event :=
  [.didSelectItemAt ⟨0⟩ .delivered ⟨.delivered, .delivered⟩,
    .didSelectItemAt ⟨1⟩ .delivered ⟨.delivered, .delivered⟩,
    .largeImageLoaded 1 .delivered ⟨.delivered, .delivered⟩,
    .largeImageLoaded 0 .delivered ⟨.delivered, .delivered⟩]

/-- The first row is then selected, and its image shown for the second photo. -/
theorem exists_last_tap_lost :
    ∃ history s tap, thirdShown.Plays tapsOutOfOrder history s ∧ (∀ t ∈ history, TapsOrLoads t) ∧
      lastTap.after history = some tap ∧ s.pendingLoads = [] ∧
      ∀ asset, ¬ @ShowsTap DateFormatter.plain tap asset s :=
  ⟨_, _, _, rfl, by decide, rfl, rfl,
    fun _ shows => absurd (@ShowsTap.selectedIndexPath DateFormatter.plain _ _ _ shows)
      (by decide)⟩

end App

end Phonotes
