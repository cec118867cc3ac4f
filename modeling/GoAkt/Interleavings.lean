import Mathlib.Tactic

/-!
# Interleavings of atomic steps

A system of concurrent parties is a state and a step function: an event names the
party that moves and what it chooses, and a step that the state does not allow gives
nothing. A run is a list of events each of which was allowed, so quantifying over runs
quantifies over all interleavings. Properties of runs are proved from what one step
does.
-/
namespace GoAkt.Interleavings
open Function

/-- A step that is allowed under a condition. -/
def allow {σ : Type*} (condition : Prop) [Decidable condition] (s : σ) : Option σ :=
  if condition then some s else none

@[simp] theorem allow_eq_some {σ : Type*} {condition : Prop} [Decidable condition] {s s' : σ} :
    allow condition s = some s' ↔ condition ∧ s = s' := by
  unfold allow
  split_ifs with h <;> simp [h]

structure System (σ ε : Type*) where
  start : σ
  step : σ → ε → Option σ

namespace System
variable {σ ε : Type*} (sys : System σ ε)

def run (events : List ε) : Option σ := events.foldlM sys.step sys.start

theorem run_concat (events : List ε) (e : ε) (s' : σ) :
    sys.run (events ++ [e]) = some s' ↔ ∃ s, sys.run events = some s ∧ sys.step s e = some s' := by
  simp [run, List.foldlM_append, Option.bind_eq_some_iff]

variable {sys}

theorem run_append {events more : List ε} {s s' : σ} (hrun : sys.run events = some s)
    (hmore : more.foldlM sys.step s = some s') : sys.run (events ++ more) = some s' := by
  unfold run at hrun ⊢
  rw [List.foldlM_append, hrun]
  exact hmore

theorem run_split {before after : List ε} {s s' : σ} (hbefore : sys.run before = some s)
    (hrun : sys.run (before ++ after) = some s') : after.foldlM sys.step s = some s' := by
  unfold run at hbefore hrun
  rw [List.foldlM_append, hbefore] at hrun
  exact hrun

/-- What holds at the start and is carried along by each step holds of every run and
the state it leads to. -/
theorem run_induction {P : List ε → σ → Prop} (hstart : P [] sys.start)
    (hstep : ∀ events s e s', sys.run events = some s → P events s → sys.step s e = some s' →
      P (events ++ [e]) s')
    {events : List ε} {s : σ} (hrun : sys.run events = some s) : P events s := by
  induction events using List.reverseRecOn generalizing s with
  | nil =>
    cases hrun
    exact hstart
  | append_singleton events e ih =>
    obtain ⟨s₀, hrun₀, hstep₀⟩ := (sys.run_concat events e s).mp hrun
    exact hstep events s₀ e s hrun₀ (ih hrun₀) hstep₀

theorem run_invariant {Inv : σ → Prop} (hstart : Inv sys.start)
    (hstep : ∀ s e s', Inv s → sys.step s e = some s' → Inv s')
    {events : List ε} {s : σ} (hrun : sys.run events = some s) : Inv s :=
  run_induction (P := fun _ s => Inv s) hstart (fun _ s e s' _ hinv hs => hstep s e s' hinv hs) hrun

/-- Some step of the run was of the kind `Q`, judged in the state it started from. -/
def Took (sys : System σ ε) (Q : σ → ε → Prop) (events : List ε) : Prop :=
  ∃ past e s, past ++ [e] <+: events ∧ sys.run past = some s ∧ Q s e

theorem not_took_nil (Q : σ → ε → Prop) : ¬sys.Took Q [] := by
  rintro ⟨past, e, s, hpast, -⟩
  exact List.append_ne_nil_of_right_ne_nil past (List.cons_ne_nil e []) (List.prefix_nil.mp hpast)

theorem took_concat {Q : σ → ε → Prop} {events : List ε} {s : σ} (hrun : sys.run events = some s)
    (e : ε) : sys.Took Q (events ++ [e]) ↔ sys.Took Q events ∨ Q s e := by
  constructor
  · rintro ⟨past, e', s', hpast, hrun', hq⟩
    rcases List.prefix_concat_iff.mp hpast with heq | hpast
    · obtain ⟨rfl, hlast⟩ := List.append_inj' heq rfl
      cases hlast
      rw [hrun] at hrun'
      cases hrun'
      exact .inr hq
    · exact .inl ⟨past, e', s', hpast, hrun', hq⟩
  · rintro (⟨past, e', s', hpast, hrun', hq⟩ | hq)
    · exact ⟨past, e', s', hpast.trans (List.prefix_append events [e]), hrun', hq⟩
    · exact ⟨events, e, s, List.prefix_rfl, hrun, hq⟩

/-- What holds at the start and is carried along by each step that is not of the kind `Q`
holds at the end of every run without such a step. -/
theorem safe_invariant {Q : σ → ε → Prop} {Inv : σ → Prop} (hstart : Inv sys.start)
    (hstep : ∀ s e s', Inv s → sys.step s e = some s' → ¬Q s e → Inv s')
    {events : List ε} {s : σ} (hsafe : ¬sys.Took Q events) (hrun : sys.run events = some s) :
    Inv s := by
  refine run_induction (P := fun events s => ¬sys.Took Q events → Inv s) (fun _ => hstart)
    (fun events s e s' hrun ih hs hsafe => ?_) hrun hsafe
  rw [took_concat hrun, not_or] at hsafe
  exact hstep s e s' (ih hsafe.1) hs hsafe.2

/-- The system without the steps that fail a test. -/
def guarded (sys : System σ ε) (test : σ → ε → Bool) : System σ ε where
  start := sys.start
  step s e := if test s e then sys.step s e else none

theorem not_took_of_guarded {Q : σ → ε → Prop} {test : σ → ε → Bool}
    (htest : ∀ s e, test s e = true → ¬Q s e) {events : List ε} {s : σ}
    (hrun : (sys.guarded test).run events = some s) :
    sys.run events = some s ∧ ¬sys.Took Q events := by
  refine run_induction (P := fun events s => sys.run events = some s ∧ ¬sys.Took Q events)
    ?_ (fun events s e s' _ h hstep => ?_) hrun
  · exact ⟨rfl, not_took_nil Q⟩
  change (if test s e then sys.step s e else none) = some s' at hstep
  split_ifs at hstep with htrue
  refine ⟨(sys.run_concat events e s').mpr ⟨s, h.1, hstep⟩, fun htook => ?_⟩
  rcases (took_concat h.1 e).mp htook with htook | hq
  · exact h.2 htook
  · exact htest s e htrue hq

/-- What is tested at the end of a run holds there. -/
lemma exists_run {events : List ε} {P : σ → Prop} [DecidablePred P]
    (h : ((sys.run events).any fun s => P s) = true) : ∃ s, sys.run events = some s ∧ P s := by
  obtain ⟨s, hrun, hs⟩ := (Option.any_eq_true ..).mp h
  exact ⟨s, hrun, of_decide_eq_true hs⟩

lemma exists_safe_run (sys : System σ ε) (events : List ε) (P : σ → Prop) [DecidablePred P]
    {Q : σ → ε → Prop} {test : σ → ε → Bool} (htest : ∀ s e, test s e = true → ¬Q s e)
    (h : (((sys.guarded test).run events).any fun s => P s) = true) :
    ∃ s, sys.run events = some s ∧ ¬sys.Took Q events ∧ P s := by
  obtain ⟨s, hguarded, hs⟩ := exists_run h
  obtain ⟨hrun, hsafe⟩ := not_took_of_guarded htest hguarded
  exact ⟨s, hrun, hsafe, hs⟩

end System

/-! ## Counting parties -/

section Counting
variable {ι α : Type*} [DecidableEq ι] (f : ι → α) (Q : α → Prop) [DecidablePred Q] (i : ι) (a : α)

omit [DecidablePred Q] in
lemma finite_update (hfin : {j | Q (f j)}.Finite) : {j | Q (update f i a j)}.Finite := by
  refine (hfin.insert i).subset fun j hj => ?_
  by_cases hji : j = i
  · exact .inl hji
  · exact .inr (by simpa [hji] using hj)

omit [DecidableEq ι] in
lemma ncard_split (hfin : {j | Q (f j)}.Finite) :
    {j | Q (f j)}.ncard = {j | j ≠ i ∧ Q (f j)}.ncard + if Q (f i) then 1 else 0 := by
  split_ifs with hi
  · have hset : {j | Q (f j)} = insert i {j | j ≠ i ∧ Q (f j)} := by
      ext j
      by_cases hji : j = i
      · simp [hji, hi]
      · simp [hji]
    rw [hset, Set.ncard_insert_of_notMem (by simp) (hfin.subset fun j hj => hj.2)]
  · have hset : {j | Q (f j)} = {j | j ≠ i ∧ Q (f j)} := by
      ext j
      by_cases hji : j = i
      · simp [hji, hi]
      · simp [hji]
    rw [← hset, add_zero]

/-- When one party moves, the number of parties of a kind changes by that party. -/
theorem ncard_update (hfin : {j | Q (f j)}.Finite) :
    {j | Q (update f i a j)}.ncard + (if Q (f i) then 1 else 0) =
      {j | Q (f j)}.ncard + if Q a then 1 else 0 := by
  have hothers : {j | j ≠ i ∧ Q (update f i a j)} = {j | j ≠ i ∧ Q (f j)} := by
    ext j
    by_cases hji : j = i <;> simp [hji]
  rw [ncard_split f Q i hfin, ncard_split _ Q i (finite_update f Q i a hfin), hothers, update_self]
  omega

end Counting
end GoAkt.Interleavings
