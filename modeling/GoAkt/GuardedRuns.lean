import Mathlib.Tactic

/-!
# Properties that hold along a run exactly when its steps are guarded

A property may fail to be an invariant of a deterministic system and still be
kept by all steps of a certain kind and broken by all others. It then holds in
every state a run passes through exactly when every step of the run is of that
kind, judged in the state the step starts from.
-/
namespace GoAkt.GuardedRuns
variable {σ ε : Type*}

/-- `Aux` is a true invariant that helps to decide whether a step keeps `Inv`. -/
lemma holds_along_iff_guarded (step : σ → ε → σ) (Aux Inv : σ → Prop) (guard : σ → ε → Prop)
    (haux : ∀ s e, Aux s → Aux (step s e))
    (hkeep : ∀ s e, Aux s → Inv s → guard s e → Inv (step s e))
    (hbreak : ∀ s e, Aux s → Inv s → ¬ guard s e → ¬ Inv (step s e))
    {start : σ} (haux₀ : Aux start) (hinv₀ : Inv start) (events : List ε) :
    (∀ past, past <+: events → Inv (past.foldl step start)) ↔
      ∀ past event, past ++ [event] <+: events → guard (past.foldl step start) event := by
  have hauxRun : ∀ past : List ε, Aux (past.foldl step start) := by
    intro past
    induction past using List.reverseRecOn with
    | nil => exact haux₀
    | append_singleton past event ih =>
      rw [List.foldl_append]
      exact haux _ event ih
  constructor
  · intro hinv past event hpast
    -- A step outside the guard would break the property in the very next state.
    by_contra hguard
    have hbefore := hinv past ((List.prefix_append past [event]).trans hpast)
    have hafter := hinv (past ++ [event]) hpast
    rw [List.foldl_append] at hafter
    exact hbreak _ event (hauxRun past) hbefore hguard hafter
  · intro hguard past
    induction past using List.reverseRecOn with
    | nil => exact fun _ => hinv₀
    | append_singleton past event ih =>
      intro hpast
      have hbefore := ih ((List.prefix_append past [event]).trans hpast)
      rw [List.foldl_append]
      exact hkeep _ event (hauxRun past) hbefore (hguard past event hpast)

end GoAkt.GuardedRuns
