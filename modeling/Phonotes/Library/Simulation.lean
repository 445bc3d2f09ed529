import Phonotes.Library.TransitionSystem

/-!
One system carried out on another.

A `Simulation` relates the states of two partial step functions and names the
events of the second that stand for a step of the first: any number of them,
and none for a step that the second does not see. A run of the first is then
carried out, event by event, by the second.
-/

namespace TransitionSystem

universe u v w x

variable {σ : Type u} {ε : Type v} {τ : Type w} {δ : Type x}

/-! ### Runs end to end -/

theorem play_append (step : σ → ε → Option σ) (s : σ) (es fs : List ε) :
    play step s (es ++ fs) =
      (play step s es).bind fun first =>
        (play step first.2 fs).map fun second => (first.1 ++ second.1, second.2) := by
  induction es generalizing s with
  | nil => simp [play]
  | cons e es ih =>
      simp only [List.cons_append, play]
      cases step s e with
      | none => rfl
      | some s' =>
          simp only [ih, Option.map_bind, Option.bind_map, Option.map_map, Function.comp_def,
            List.cons_append]

theorem play_append_of_play {step : σ → ε → Option σ} {s middle last : σ} {es fs : List ε}
    {first second : List (Transition σ ε)} (played : play step s es = some (first, middle))
    (playedOn : play step middle fs = some (second, last)) :
    play step s (es ++ fs) = some (first ++ second, last) := by
  rw [play_append, played, Option.bind_some, playedOn, Option.map_some]

theorem play_singleton {step : σ → ε → Option σ} {s s' : σ} {e : ε}
    (taken : step s e = some s') : play step s [e] = some ([⟨s, e, s'⟩], s') := by
  simp [play, taken]

/-- A step function that is never stuck plays every list of events. -/
theorem exists_play_of_total (f : σ → ε → σ) (s : σ) (es : List ε) :
    ∃ history, play (fun s e => some (f s e)) s es = some (history, es.foldl f s) := by
  induction es generalizing s with
  | nil => exact ⟨[], rfl⟩
  | cons e es ih =>
      obtain ⟨rest, played⟩ := ih (f s e)
      exact ⟨⟨s, e, f s e⟩ :: rest, by simp [play, played]⟩

theorem map_event_of_play {step : σ → ε → Option σ} {s s' : σ} {es : List ε}
    {history : List (Transition σ ε)} (played : play step s es = some (history, s')) :
    history.map Transition.event = es := by
  induction es generalizing s history with
  | nil =>
      cases played
      rfl
  | cons e es ih =>
      simp only [play] at played
      cases taken : step s e with
      | none => simp [taken] at played
      | some middle =>
          simp only [taken, Option.map_eq_some_iff] at played
          obtain ⟨⟨rest, last⟩, playedRest, same⟩ := played
          cases same
          rw [List.map_cons, ih playedRest]

/-! ### Simulations -/

/-- Steps of `step` that satisfy `Allowed` are carried out by the events `emits`
of `step'`, between related states. -/
structure Simulation (step : σ → ε → Option σ) (step' : τ → δ → Option τ) where
  Rel : σ → τ → Prop
  Allowed : Transition σ ε → Prop
  emits : σ → ε → List δ
  carried : ∀ {s s' : σ} {e : ε} {t : τ}, Allowed ⟨s, e, s'⟩ → Rel s t → step s e = some s' →
    ∃ steps t', play step' t (emits s e) = some (steps, t') ∧ Rel s' t'

namespace Simulation

variable {step : σ → ε → Option σ} {step' : τ → δ → Option τ}

/-- The events of the second system that a history of the first stands for. -/
def events (S : Simulation step step') (history : List (Transition σ ε)) : List δ :=
  history.flatMap fun t => S.emits t.before t.event

@[simp] theorem events_snoc (S : Simulation step step') (history : List (Transition σ ε))
    (t : Transition σ ε) :
    S.events (history ++ [t]) = S.events history ++ S.emits t.before t.event := by
  simp [events]

/-- A run of the first system is carried out by the second. -/
theorem play_of_run (S : Simulation step step') {start s : σ} {start' : τ}
    {history : List (Transition σ ε)} (related : S.Rel start start')
    (run : Run step start history s) (allowed : ∀ t ∈ history, S.Allowed t) :
    ∃ history' s', play step' start' (S.events history) = some (history', s') ∧
      S.Rel s s' := by
  induction run with
  | nil => exact ⟨[], start', rfl, related⟩
  | snoc _ taken ih =>
      obtain ⟨earlier, middle, played, between⟩ :=
        ih fun t member => allowed t (List.mem_append_left _ member)
      obtain ⟨steps, last, playedOn, after⟩ := S.carried (allowed _ (by simp)) between taken
      rw [events_snoc]
      exact ⟨earlier ++ steps, last, play_append_of_play played playedOn, after⟩

/-- Two runs that stand for the same events of the second system end in states
related to one and the same state of it. -/
theorem exists_common (S : Simulation step step') {start s₁ s₂ : σ} {start' : τ}
    {history₁ history₂ : List (Transition σ ε)} (related : S.Rel start start')
    (run₁ : Run step start history₁ s₁) (run₂ : Run step start history₂ s₂)
    (allowed₁ : ∀ t ∈ history₁, S.Allowed t) (allowed₂ : ∀ t ∈ history₂, S.Allowed t)
    (same : S.events history₁ = S.events history₂) :
    ∃ s', S.Rel s₁ s' ∧ S.Rel s₂ s' := by
  obtain ⟨_, _, played₁, after₁⟩ := S.play_of_run related run₁ allowed₁
  obtain ⟨_, _, played₂, after₂⟩ := S.play_of_run related run₂ allowed₂
  rw [same, played₂] at played₁
  cases played₁
  exact ⟨_, after₁, after₂⟩

end Simulation

end TransitionSystem
