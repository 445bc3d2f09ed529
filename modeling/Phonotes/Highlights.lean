import Phonotes.FixedLibrary

/-!
Which cell is highlighted.

The flags are moved by the completion of `didSelectItemAt`, through two calls of
`getCellViewModel`. Each of them fetches a thumbnail first, and without one
hands out a throw-away cell, on which the new flag is lost. `nextHighlight` says
what becomes of a flag, and `HighlightFollows` when that is right.
-/

namespace Phonotes

open TransitionSystem NoteTakingViewModel

namespace App

variable {s s' : App} {e : Event}

/-! ### The flags after a step -/

/-- The completion of `didSelectItemAt` that this event runs: for which row, and
with which answers to its two fetches. -/
def completes (s : App) : Event → Option (IndexPath × CellReplies)
  | .didSelectItemAt indexPath _ cells =>
      if s.view.getAccessButtonIsHidden ∧ s.viewModel.assetAt indexPath.item = none then
        some (indexPath, cells)
      else none
  | .largeImageLoaded i _ cells =>
      match s.pendingLoads[i]? with
      | some load =>
          if load.completion = .didSelectItemAt then some (load.indexPath, cells) else none
      | none => none
  | _ => none

/-- The selected row moves with that completion alone. -/
theorem selectedIndexPath_of_completes [DateFormatter] (stepped : Stepped s e s') :
    s'.viewModel.selectedIndexPath =
      ((s.completes e).map Prod.fst).getD s.viewModel.selectedIndexPath := by
  rw [selectedIndexPath_of_stepped stepped]
  cases e with
  | didSelectItemAt indexPath thumbnail cells =>
      simp only [movesSelection, completes]
      split_ifs <;> rfl
  | largeImageLoaded i image cells =>
      cases pending : s.pendingLoads[i]? with
      | none => simp [movesSelection, completes, pending]
      | some load =>
          cases completion : load.completion <;>
            simp [movesSelection, completes, pending, loadedIndexPath, completion]
  | _ => rfl

/-- The flag of a row once the completion has run for the row `new`. -/
def completedHighlight (s : App) (new : IndexPath) (cells : CellReplies) (row : Nat) :
    Option Bool :=
  if row = new.item ∧ s.viewModel.Fetches new cells.current then some true
  else if row = s.viewModel.selectedIndexPath.item ∧
      s.viewModel.Fetches s.viewModel.selectedIndexPath cells.previous then some false
  else s.viewModel.highlightAt row

/-- The flag of a row after an event. -/
def nextHighlight (s : App) (e : Event) (row : Nat) : Option Bool :=
  match s.completes e, e with
  | some (new, cells), _ => s.completedHighlight new cells row
  | none, .cellForItemAt indexPath thumbnail =>
      if row = indexPath.item ∧ s.viewModel.Fetches indexPath thumbnail then
        some ((s.viewModel.highlightAt row).getD
          (decide (indexPath = s.viewModel.selectedIndexPath)))
      else s.viewModel.highlightAt row
  | none, _ => s.viewModel.highlightAt row

theorem highlightAt_didSelectCompletion (self : App) (new : IndexPath) (cells : CellReplies)
    (row : Nat) :
    (self.didSelectCompletion new cells).viewModel.highlightAt row =
      self.completedHighlight new cells row := by
  rw [didSelectCompletion_viewModel, highlightAt_highlight]
  simp only [(redrawn_highlight self.noteManager _ cells.previous false).fetches_iff,
    highlightAt_highlight]
  rfl

theorem highlightAt_loadedViewModel [DateFormatter] (self : App) (load : PendingLoad)
    (image : ImageReply) (row : Nat) :
    (self.loadedViewModel load image).highlightAt row = self.viewModel.highlightAt row := by
  simp only [loadedViewModel, largeImageLoaded_eq, highlightAt]
  apply map_assigned
  intro cell
  rfl

theorem fetches_loadedViewModel_iff [DateFormatter] (self : App) (load : PendingLoad)
    (image : ImageReply) {indexPath : IndexPath} {reply : ImageReply} :
    (self.loadedViewModel load image).Fetches indexPath reply ↔
      self.viewModel.Fetches indexPath reply := by
  simp only [loadedViewModel, largeImageLoaded_eq]
  rfl

theorem nextHighlight_of_untouched (untouched : s.touchesCells e = false) (row : Nat) :
    s.nextHighlight e row = s.viewModel.highlightAt row := by
  cases e with
  | didSelectItemAt indexPath thumbnail cells =>
      have idle : s.completes (.didSelectItemAt indexPath thumbnail cells) = none := by
        simpa [completes, touchesCells, Option.isSome_iff_ne_none] using untouched
      simp only [nextHighlight, idle]
  | largeImageLoaded i image cells => cases untouched
  | cellForItemAt indexPath thumbnail => cases untouched
  | _ => rfl

theorem highlightAt_of_stepped [DateFormatter] (stepped : Stepped s e s') (row : Nat) :
    s'.viewModel.highlightAt row = s.nextHighlight e row := by
  cases touched : s.touchesCells e with
  | false =>
      rw [nextHighlight_of_untouched touched, highlightAt,
        cellViewModels_of_untouched touched stepped]
      rfl
  | true =>
      cases stepped with
      | tapUnselectable hidden missing =>
          simp only [nextHighlight, completes, hidden, missing, and_self, if_true,
            highlightAt_didSelectCompletion]
      | @largeImageLoaded i load image cells pending =>
          rw [largeImageLoaded_eq_completion]
          cases completion : load.completion with
          | viewWillAppear =>
              simp only [nextHighlight, completes, pending, completion, reduceCtorEq, if_false]
              exact highlightAt_loadedViewModel _ load image row
          | didSelectItemAt =>
              simp only [nextHighlight, completes, pending, completion, if_true,
                highlightAt_didSelectCompletion, completedHighlight, fetches_loadedViewModel_iff,
                highlightAt_loadedViewModel, loadedViewModel_selectedIndexPath]
      | @cellForItemAt indexPath thumbnail =>
          simp only [App.cellForItemAt, nextHighlight, completes, highlightAt_getCellViewModel]
      | endedEditing ended saved =>
          have kept : s'.viewModel.highlightAt row = s.viewModel.highlightAt row :=
            saved.map_cells (fun _ _ => rfl) row
          rw [kept]
          cases e <;> first | rfl | cases ended
      | tapIgnored shown => simp [touchesCells, shown] at touched
      | tapUnfetched _ found => simp [touchesCells, found] at touched
      | tapSelected _ _ found => simp [touchesCells, found] at touched
      | _ => cases touched

/-! ### One highlighted cell -/

/-- Of the cached cells exactly that of the selected row is highlighted. -/
def Highlighted (s : App) : Prop :=
  ∀ row cell, s.viewModel.cellViewModels row = some cell →
    (cell.isSelected = true ↔ row = s.viewModel.selectedIndexPath.row)

theorem highlighted_iff :
    Highlighted s ↔ ∀ row flag, s.viewModel.highlightAt row = some flag →
      (flag = true ↔ row = s.viewModel.selectedIndexPath.item) := by
  constructor
  · intro highlighted row flag held
    obtain ⟨cell, cached, rfl⟩ := Option.map_eq_some_iff.mp held
    exact highlighted row cell cached
  · intro flags row cell cached
    apply flags row
    simp only [highlightAt, cached, Option.map_some]

/-- The two fetches of the completion for the row `new` get through to the cells
that are cached for the row selected before and for `new`. Where these are one
row, the second fetch has to make good what the first one undoes. -/
def HighlightFollows (s : App) (new : IndexPath) (cells : CellReplies) : Prop :=
  let previous := s.viewModel.selectedIndexPath
  (new = previous →
    s.viewModel.Fetches previous cells.previous → s.viewModel.Fetches new cells.current) ∧
  (new ≠ previous →
    ((s.viewModel.highlightAt previous.item).isSome →
        s.viewModel.Fetches previous cells.previous) ∧
      ((s.viewModel.highlightAt new.item).isSome → s.viewModel.Fetches new cells.current))

instance (s : App) (new : IndexPath) (cells : CellReplies) :
    Decidable (s.HighlightFollows new cells) :=
  inferInstanceAs (Decidable ((_ → _) ∧ (_ → _)))

/-- A completion that runs finds the cells it is about. -/
def HighlightsFollow (t : Transition App Event) : Prop :=
  ∀ completed ∈ t.before.completes t.event,
    t.before.HighlightFollows completed.1 completed.2

instance : DecidablePred HighlightsFollow := fun _ => inferInstanceAs (Decidable (∀ _ ∈ _, _))

section Completion

variable {new : IndexPath} {cells : CellReplies}

/-- The new row ends up highlighted. -/
theorem completedHighlight_new_iff (highlighted : Highlighted s) :
    (∀ flag, s.completedHighlight new cells new.item = some flag → flag = true) ↔
      (new = s.viewModel.selectedIndexPath →
        s.viewModel.Fetches s.viewModel.selectedIndexPath cells.previous →
          s.viewModel.Fetches new cells.current) ∧
      (new ≠ s.viewModel.selectedIndexPath →
        (s.viewModel.highlightAt new.item).isSome → s.viewModel.Fetches new cells.current) := by
  have before := highlighted_iff.mp highlighted
  by_cases found : s.viewModel.Fetches new cells.current
  · simp [completedHighlight, found]
  · by_cases same : new = s.viewModel.selectedIndexPath
    · subst same
      by_cases cleared :
          s.viewModel.Fetches s.viewModel.selectedIndexPath cells.previous
      · simp [completedHighlight, found, cleared]
      · have kept (flag : Bool)
            (held : s.viewModel.highlightAt s.viewModel.selectedIndexPath.item = some flag) :
            flag = true := (before _ _ held).mpr rfl
        simpa [completedHighlight, found, cleared] using kept
    · have apart := IndexPath.item_ne_of_ne same
      have off (flag : Bool) (held : s.viewModel.highlightAt new.item = some flag) :
          flag = false := by
        simpa [apart] using before _ _ held
      simp only [completedHighlight, found, and_false, if_false, apart, false_and, same,
        false_implies, true_and, ne_eq, not_false_eq_true, true_implies]
      cases held : s.viewModel.highlightAt new.item with
      | none => simp
      | some flag => simp [off flag held]

/-- The row selected before, when it is another, ends up without highlight. -/
theorem completedHighlight_previous_iff (highlighted : Highlighted s)
    (moved : new ≠ s.viewModel.selectedIndexPath) :
    (∀ flag, s.completedHighlight new cells s.viewModel.selectedIndexPath.item = some flag →
        flag = false) ↔
      ((s.viewModel.highlightAt s.viewModel.selectedIndexPath.item).isSome →
        s.viewModel.Fetches s.viewModel.selectedIndexPath cells.previous) := by
  have before := highlighted_iff.mp highlighted
  have apart := IndexPath.item_ne_of_ne moved.symm
  by_cases found : s.viewModel.Fetches s.viewModel.selectedIndexPath cells.previous
  · simp [completedHighlight, found, apart]
  · simp only [completedHighlight, found, and_false, if_false, apart, false_and]
    cases held : s.viewModel.highlightAt s.viewModel.selectedIndexPath.item with
    | none => simp
    | some flag => simp [(before _ _ held).mpr rfl]

/-- The completion moves the highlight exactly when it finds the cells. -/
theorem completedHighlight_iff (highlighted : Highlighted s) :
    (∀ row flag, s.completedHighlight new cells row = some flag →
      (flag = true ↔ row = new.item)) ↔ s.HighlightFollows new cells := by
  have before := highlighted_iff.mp highlighted
  constructor
  · intro flags
    have atNew := (completedHighlight_new_iff highlighted).mp fun flag held =>
      (flags _ flag held).mpr rfl
    refine ⟨atNew.1, ?_⟩
    intro moved
    refine ⟨?_, atNew.2 moved⟩
    apply (completedHighlight_previous_iff highlighted moved).mp
    intro flag held
    simpa [IndexPath.item_ne_of_ne moved.symm] using flags _ flag held
  · rintro ⟨again, moves⟩ row flag held
    by_cases isNew : row = new.item
    · subst isNew
      have on := (completedHighlight_new_iff highlighted).mpr
        ⟨again, fun moved => (moves moved).2⟩ flag held
      exact iff_of_true on rfl
    · refine iff_of_false ?_ isNew
      by_cases wasSelected : row = s.viewModel.selectedIndexPath.item
      · subst wasSelected
        have moved : new ≠ s.viewModel.selectedIndexPath := by
          rintro rfl
          exact isNew rfl
        have off :=
          (completedHighlight_previous_iff highlighted moved).mpr (moves moved).1 flag held
        simp [off]
      · simp only [completedHighlight, isNew, wasSelected, false_and, if_false] at held
        exact (before row flag held).not.mpr wasSelected

end Completion

/-- Without a completion at most a new cell comes, with the right flag. -/
theorem nextHighlight_of_not_completes (highlighted : Highlighted s)
    (idle : s.completes e = none) {row : Nat} {flag : Bool}
    (held : s.nextHighlight e row = some flag) :
    flag = true ↔ row = s.viewModel.selectedIndexPath.item := by
  have before := highlighted_iff.mp highlighted
  simp only [nextHighlight, idle] at held
  cases e with
  | cellForItemAt indexPath thumbnail =>
      dsimp only at held
      split_ifs at held with asked
      · cases had : s.viewModel.highlightAt row with
        | some old =>
            simp only [had, Option.getD_some, Option.some.injEq] at held
            subst held
            exact before row old had
        | none =>
            simp only [had, Option.getD_none, Option.some.injEq] at held
            subst held
            rw [asked.1, decide_eq_true_iff]
            refine ⟨congrArg IndexPath.item, fun same => ?_⟩
            by_contra apart
            exact IndexPath.item_ne_of_ne apart same
      · exact before row flag held
  | _ => exact before row flag held

/-- A step that starts with the highlight on the selected row ends so exactly when
a completion that it runs finds the cells. -/
theorem highlighted_iff_of_stepped [DateFormatter] (highlighted : Highlighted s)
    (stepped : Stepped s e s') : Highlighted s' ↔ HighlightsFollow ⟨s, e, s'⟩ := by
  simp only [highlighted_iff, highlightAt_of_stepped stepped,
    selectedIndexPath_of_completes stepped]
  unfold HighlightsFollow
  cases completed : s.completes e with
  | some completion =>
      obtain ⟨new, cells⟩ := completion
      simp only [nextHighlight, completed, Option.map_some, Option.getD_some,
        Option.mem_def, Option.some.injEq, forall_eq']
      exact completedHighlight_iff highlighted
  | none =>
      refine iff_of_true ?_ (by simp)
      intro row flag held
      exact nextHighlight_of_not_completes highlighted completed held

theorem highlighted_app (launch : Launch) : Highlighted launch.app := by
  intro row cell cached
  cases cached

/-- In a run the highlight is on the selected row in every state reached exactly
when every completion that runs finds the cells it is about. -/
theorem highlighted_run_iff [DateFormatter] {launch : Launch}
    {history : List (Transition App Event)} (run : launch.Run history s) :
    (∀ t ∈ history, Highlighted t.after) ↔ ∀ t ∈ history, HighlightsFollow t := by
  refine Run.forall_after_iff (I := fun _ => True) (C := fun _ => True) trivial
    (highlighted_app launch) (fun _ _ _ _ _ _ => trivial) ?_ run (fun _ _ => trivial)
  intro s e s' _ _ highlighted taken
  exact highlighted_iff_of_stepped highlighted (stepped_of_step taken).2

/-- The cell of the selected third row is displayed and the first row tapped. -/
def secondHighlight (previous : ImageReply) : List Event :=
  startup ++ [.cellForItemAt ⟨2⟩ .delivered,
    .didSelectItemAt ⟨0⟩ .delivered ⟨.delivered, .delivered⟩,
    .largeImageLoaded 0 .delivered ⟨previous, .delivered⟩]

theorem highlighted_run_iff_secondHighlight :
    ∃ history s, Launch.threePhotos.app.Plays (secondHighlight .delivered) history s ∧
      ∀ t ∈ history, Highlighted t.after := by
  have plays : Launch.threePhotos.app.Plays (secondHighlight .delivered) _ _ := rfl
  exact ⟨_, _, plays, (@highlighted_run_iff _ DateFormatter.plain _ _ plays.run).mpr (by decide)⟩

/-- When the thumbnail of the third row is not delivered as the selection moves on,
its cell stays highlighted next to the newly selected one. -/
theorem exists_two_highlighted :
    ∃ history s, Launch.threePhotos.app.Plays (secondHighlight .nil) history s ∧
      (∀ t ∈ history, KeepsLibrary t) ∧ s.viewModel.selectedIndexPath = ⟨0⟩ ∧
      s.viewModel.highlightAt 0 = some true ∧ s.viewModel.highlightAt 2 = some true ∧
      ¬ Highlighted s := by
  have plays : Launch.threePhotos.app.Plays (secondHighlight .nil) _ _ := rfl
  refine ⟨_, _, plays, by decide, rfl, by decide, by decide, ?_⟩
  intro highlighted
  have flags := highlighted_iff.mp highlighted 2 true (by decide)
  exact absurd (flags.mp rfl) (by decide)

end App

end Phonotes
