import Phonotes.Highlights

/-!
Taps that select nothing.

`setCurrentSelectedPhoto` has two exits on which no photo is selected. The one for
a failed thumbnail calls nothing. The one for a row without an asset calls the
completion, as a success does, and what `didSelectItemAt` passes for it cannot
tell: it selects the row and repopulates the screen.
-/

namespace Phonotes

open TransitionSystem NoteTakingViewModel

/-- The selection made its photo the current one. -/
def Selection.makesCurrent : Selection → Bool
  | .loading _ _ _ => true
  | _ => false

theorem makesCurrent_setCurrentSelectedPhoto (viewModel : NoteTakingViewModel)
    (noteManager : NoteManager) (indexPath : IndexPath) (reply : ImageReply) :
    (viewModel.setCurrentSelectedPhoto noteManager indexPath reply).makesCurrent = true ↔
      viewModel.Fetches indexPath reply := by
  cases found : viewModel.assetAt indexPath.item with
  | none =>
      rw [setCurrentSelectedPhoto_of_no_asset noteManager found]
      simp [Selection.makesCurrent, Fetches, found]
  | some asset =>
      obtain ⟨manager, held, -⟩ := manager_of_assetAt found
      cases reply with
      | nil =>
          rw [setCurrentSelectedPhoto_of_nil noteManager found]
          simp [Selection.makesCurrent, Fetches]
      | delivered =>
          rw [setCurrentSelectedPhoto_of_delivered noteManager held found]
          simp [Selection.makesCurrent, Fetches, found]

namespace App

variable {s : App}

/-- Everything that says which photo is selected is as it was: the selected row,
the current photo, the flags of the cached cells and the texts on screen. -/
structure SelectionKept (before after : App) : Prop where
  selectedIndexPath : after.viewModel.selectedIndexPath = before.viewModel.selectedIndexPath
  currentSelectedPhoto :
    after.viewModel.currentSelectedPhoto = before.viewModel.currentSelectedPhoto
  highlights : ∀ row flag, before.viewModel.highlightAt row = some flag →
    after.viewModel.highlightAt row = some flag
  texts : after.view.creationDateLabel = before.view.creationDateLabel ∧
    after.view.noteTitleTextField = before.view.noteTitleTextField ∧
    after.view.noteDetailTextView = before.view.noteDetailTextView

namespace SelectionKept

theorem refl (s : App) : SelectionKept s s := ⟨rfl, rfl, fun _ _ held => held, rfl, rfl, rfl⟩

end SelectionKept

/-- The screen shows the texts that the view model exposes. -/
def ShowsExposed (s : App) : Prop :=
  s.view.creationDateLabel = s.viewModel.photoCreatedData ∧
    s.view.noteTitleTextField = s.viewModel.noteTitle.getD "" ∧
    s.view.noteDetailTextView = s.viewModel.noteDetail.getD ""

/-- A completion for a row without an asset keeps the selection exactly when the
row is the selected one and the screen is up to date. -/
theorem selectionKept_didSelectCompletion_iff {indexPath : IndexPath} {cells : CellReplies}
    (missing : s.viewModel.assetAt indexPath.item = none) :
    SelectionKept s (s.didSelectCompletion indexPath cells) ↔
      indexPath = s.viewModel.selectedIndexPath ∧ s.ShowsExposed := by
  have populated : (s.didSelectCompletion indexPath cells).view.creationDateLabel =
        s.viewModel.photoCreatedData ∧
      (s.didSelectCompletion indexPath cells).view.noteTitleTextField =
        s.viewModel.noteTitle.getD "" ∧
      (s.didSelectCompletion indexPath cells).view.noteDetailTextView =
        s.viewModel.noteDetail.getD "" := ⟨rfl, rfl, rfl⟩
  constructor
  · intro kept
    refine ⟨?_, ?_⟩
    · rw [← kept.selectedIndexPath, didSelectCompletion_selectedIndexPath]
    · exact ⟨kept.texts.1.symm, kept.texts.2.1.symm, kept.texts.2.2.symm⟩
  · rintro ⟨same, label, title, detail⟩
    refine ⟨?_, didSelectCompletion_currentSelectedPhoto .., ?_, label.symm, title.symm,
      detail.symm⟩
    · rw [didSelectCompletion_selectedIndexPath, same]
    · intro row flag held
      have unfetched (reply : ImageReply) : ¬ s.viewModel.Fetches indexPath reply := by
        rintro ⟨-, found⟩
        simp [missing] at found
      rw [highlightAt_didSelectCompletion, completedHighlight, ← same]
      simpa only [unfetched, and_false, if_false] using held

/-- A tap that does not make its photo the current one keeps the selection, unless
it is on a row without an asset: then only if that is the selected row and the
screen is up to date. -/
theorem selectionKept_didSelectItemAt_iff (s : App) (indexPath : IndexPath)
    (thumbnail : ImageReply) (cells : CellReplies) :
    ((s.viewModel.setCurrentSelectedPhoto s.noteManager indexPath thumbnail).makesCurrent =
        false → SelectionKept s (s.didSelectItemAt indexPath thumbnail cells)) ↔
      (s.view.getAccessButtonIsHidden = true → s.viewModel.assetAt indexPath.item = none →
        indexPath = s.viewModel.selectedIndexPath ∧ s.ShowsExposed) := by
  rw [← Bool.not_eq_true, makesCurrent_setCurrentSelectedPhoto]
  cases hidden : s.view.getAccessButtonIsHidden with
  | false =>
      refine iff_of_true ?_ (by simp)
      intro _
      simp only [App.didSelectItemAt, hidden, Bool.false_eq_true, if_false]
      exact .refl s
  | true =>
      cases found : s.viewModel.assetAt indexPath.item with
      | none =>
          have unfetched : ¬ s.viewModel.Fetches indexPath thumbnail := by simp [Fetches, found]
          simp only [unfetched, not_false_eq_true, true_implies, App.didSelectItemAt, hidden,
            if_true, setCurrentSelectedPhoto_of_no_asset s.noteManager found]
          exact selectionKept_didSelectCompletion_iff found
      | some asset =>
          refine iff_of_true ?_ (by simp)
          intro unfetched
          cases thumbnail with
          | nil =>
              simp only [App.didSelectItemAt, hidden, if_true,
                setCurrentSelectedPhoto_of_nil s.noteManager found]
              exact .refl s
          | delivered => exact absurd ⟨rfl, by simp [found]⟩ unfetched

/-- A tap that does not make its photo the current one changes nothing. -/
def KeepsUnselected (t : Transition App Event) : Prop :=
  ∀ indexPath thumbnail cells, t.event = .didSelectItemAt indexPath thumbnail cells →
    (t.before.viewModel.setCurrentSelectedPhoto t.before.noteManager indexPath
      thumbnail).makesCurrent = false → SelectionKept t.before t.after

/-- A tap is on a row with an asset, unless it is ignored, or on the selected row
with the screen up to date. -/
def TapsSelectable (t : Transition App Event) : Prop :=
  ∀ indexPath ∈ t.event.taps, t.before.view.getAccessButtonIsHidden = true →
    t.before.viewModel.assetAt indexPath.item = none →
      indexPath = t.before.viewModel.selectedIndexPath ∧ t.before.ShowsExposed

instance (s : App) : Decidable s.ShowsExposed := inferInstanceAs (Decidable (_ ∧ _ ∧ _))

instance : DecidablePred TapsSelectable := fun _ =>
  inferInstanceAs (Decidable (∀ _ ∈ _, _ → _ → _))

/-- In any run, a tap that cannot be carried out changes nothing exactly when it is
on a row with an asset, or ignored, or changes nothing because the row is selected
and shown already. -/
theorem keepsUnselected_iff [DateFormatter] {launch : Launch}
    {history : List (Transition App Event)} (run : launch.Run history s) :
    ∀ t ∈ history, KeepsUnselected t ↔ TapsSelectable t := by
  rintro ⟨before, e, after⟩ member
  have taken := run.step_of_mem member
  cases e with
  | didSelectItemAt indexPath thumbnail cells =>
      have same : before.didSelectItemAt indexPath thumbnail cells = after := by
        simp only [step] at taken
        split_ifs at taken
        exact Option.some.inj taken
      subst same
      have tap := selectionKept_didSelectItemAt_iff before indexPath thumbnail cells
      constructor
      · intro kept tapped isTapped
        obtain rfl : indexPath = tapped := Option.some.inj isTapped
        exact tap.mp (kept indexPath thumbnail cells rfl)
      · intro selectable tapped reply replies isTap
        cases isTap
        exact tap.mpr (selectable indexPath rfl)
  | _ =>
      refine iff_of_true ?_ ?_
      · intro tapped reply replies isTap
        cases isTap
      · intro tapped isTapped
        cases isTapped

/-- A tap whose thumbnail is not delivered changes nothing. -/
theorem keepsUnselected_iff_unfetchedTap :
    ∃ history s, Launch.threePhotos.app.Plays
        (startup ++ [.didSelectItemAt ⟨0⟩ .nil ⟨.delivered, .delivered⟩]) history s ∧
      ∀ t ∈ history, KeepsUnselected t := by
  have plays : Launch.threePhotos.app.Plays
      (startup ++ [.didSelectItemAt ⟨0⟩ .nil ⟨.delivered, .delivered⟩]) _ _ := rfl
  refine ⟨_, _, plays, ?_⟩
  intro t member
  have selectable : TapsSelectable t := by
    revert t
    decide
  exact (@keepsUnselected_iff _ DateFormatter.plain _ _ plays.run t member).mpr selectable

/-- The third photo is selected when the library shrinks to the first, and the
second cell, which is still displayed, is tapped. -/
def tapPastEnd : List Event :=
  startup ++ [.photoLibraryDidChange (some [⟨"a", none⟩]),
    .didSelectItemAt ⟨1⟩ .delivered ⟨.delivered, .delivered⟩]

/-- The selected row moves to the tapped one, though the photo of the third row
stays the current one. -/
theorem exists_selection_moved_without_photo :
    ∃ history s t, Launch.threePhotos.app.Plays tapPastEnd history s ∧ t ∈ history ∧
      t.event = .didSelectItemAt ⟨1⟩ .delivered ⟨.delivered, .delivered⟩ ∧
      t.before.viewModel.photoManager.isSome ∧
      t.before.currentPhotoId = some "c" ∧
      (t.before.viewModel.setCurrentSelectedPhoto t.before.noteManager ⟨1⟩
        .delivered).makesCurrent = false ∧
      t.before.viewModel.selectedIndexPath = ⟨2⟩ ∧ t.after.viewModel.selectedIndexPath = ⟨1⟩ ∧
      t.after.currentPhotoId = some "c" ∧ ¬ SelectionKept t.before t.after := by
  have plays : Launch.threePhotos.app.Plays tapPastEnd _ _ := rfl
  refine ⟨_, _, _, plays, List.mem_of_mem_getLast? rfl, rfl, rfl, rfl, rfl, rfl, rfl, rfl, ?_⟩
  intro kept
  exact absurd kept.selectedIndexPath (by decide)

end App

end Phonotes
