import Mathlib.Tactic

/-!
# Runs of a replicated object

Every replica owns a state. A run interleaves local updates, emissions and
deliveries. An emission puts a message into a pool that is never emptied, and a
delivery merges any message of the pool into any replica, so messages may be
reordered, repeated, delayed arbitrarily or never delivered at all. Messages are
states themselves: full copies or deltas, as the object decides.
-/
namespace GoAkt.ReplicaRuns
open List
variable {ν ω ε σ : Type*}

/-- A replicated object over nodes `ν`, local operations `ω` and kinds of
emission `ε`. An emission may produce nothing and may change the emitting state. -/
structure Object (ν ω ε σ : Type*) where
  init : σ
  update : ν → ω → σ → σ
  emit : ε → σ → Option σ × σ
  merge : σ → σ → σ

/-- An object whose only message is a full copy of its state. -/
def stateBased (init : σ) (update : ν → ω → σ → σ) (merge : σ → σ → σ) : Object ν ω Unit σ where
  init := init
  update := update
  emit _ s := (some s, s)
  merge := merge

inductive Step (ν ω ε : Type*) where
  | update (n : ν) (op : ω)
  | emit (n : ν) (kind : ε)
  | deliver (n : ν) (message : ℕ)
  deriving DecidableEq, Repr

structure Config (ν σ : Type*) where
  state : ν → σ
  pool : List (Option σ)

/-- A state that some replica holds or some message carries. -/
def Config.Holds (c : Config ν σ) (s : σ) : Prop := (∃ n, c.state n = s) ∨ some s ∈ c.pool

namespace Object
variable [DecidableEq ν] (O : Object ν ω ε σ) (c : Config ν σ) (steps : List (Step ν ω ε))
  (s : Step ν ω ε)

def initial : Config ν σ := ⟨fun _ => O.init, []⟩

/-- Delivering a message that does not exist, or is empty, changes nothing. -/
def step : Step ν ω ε → Config ν σ
  | .update n op => ⟨Function.update c.state n (O.update n op (c.state n)), c.pool⟩
  | .emit n kind =>
    let out := O.emit kind (c.state n)
    ⟨Function.update c.state n out.2, c.pool ++ [out.1]⟩
  | .deliver n i =>
    match c.pool[i]?.join with
    | none => c
    | some t => ⟨Function.update c.state n (O.merge (c.state n) t), c.pool⟩

def run : Config ν σ := steps.foldl O.step O.initial

@[simp] lemma run_nil : O.run [] = O.initial := rfl

@[simp] lemma run_concat : O.run (steps ++ [s]) = O.step (O.run steps) s := by
  simp [run, foldl_append]

/-- Everything a step can do: touch one replica, and possibly append one message. -/
theorem step_cases : (∃ n op, s = .update n op ∧
      O.step c s = ⟨Function.update c.state n (O.update n op (c.state n)), c.pool⟩) ∨
    (∃ n kind, s = .emit n kind ∧ O.step c s =
      ⟨Function.update c.state n (O.emit kind (c.state n)).2,
        c.pool ++ [(O.emit kind (c.state n)).1]⟩) ∨
    (∃ n i t, s = .deliver n i ∧ c.pool[i]? = some (some t) ∧
      O.step c s = ⟨Function.update c.state n (O.merge (c.state n) t), c.pool⟩) ∨
    (∃ n i, s = .deliver n i ∧ c.pool[i]?.join = none ∧ O.step c s = c) := by
  cases s with
  | update n op => exact .inl ⟨n, op, rfl, rfl⟩
  | emit n kind => exact .inr (.inl ⟨n, kind, rfl, rfl⟩)
  | deliver n i =>
    cases h : c.pool[i]?.join with
    | none => exact .inr (.inr (.inr ⟨n, i, rfl, h, by simp [step, h]⟩))
    | some t =>
      have hget : c.pool[i]? = some (some t) := Option.join_eq_some_iff.mp h
      exact .inr (.inr (.inl ⟨n, i, t, rfl, hget, by simp [step, h]⟩))

/-- Messages stay in the pool under the number they were given. -/
lemma pool_append (steps more : List (Step ν ω ε)) :
    (O.run steps).pool <+: (O.run (steps ++ more)).pool := by
  induction more using reverseRecOn with
  | nil => simp
  | append_singleton more s ih =>
    rw [← append_assoc, run_concat]
    refine ih.trans ?_
    rcases O.step_cases (O.run (steps ++ more)) s with ⟨n, op, -, hs⟩ | ⟨n, kind, -, hs⟩ |
      ⟨n, i, t, -, -, hs⟩ | ⟨n, i, -, -, hs⟩
    · rw [hs]
    · rw [hs]
      exact prefix_append _ _
    · rw [hs]
    · rw [hs]

/-- The invariant rule for properties that depend on the replica: messages are
not constrained, so merging must keep the property whatever arrives. -/
theorem replica_invariant (Inv : ν → σ → Prop)
    (hinit : ∀ n, Inv n O.init) (hupdate : ∀ n op s, Inv n s → Inv n (O.update n op s))
    (hemit : ∀ n kind s, Inv n s → Inv n (O.emit kind s).2)
    (hmerge : ∀ n s t, Inv n s → Inv n (O.merge s t)) (steps : List (Step ν ω ε)) :
    ∀ n, Inv n ((O.run steps).state n) := by
  induction steps using reverseRecOn with
  | nil => exact hinit
  | append_singleton steps s ih =>
    have hwrite : ∀ n u, Inv n u → ∀ m, Inv m (Function.update (O.run steps).state n u m) :=
      fun n u hu => (Function.forall_update_iff _ Inv).mpr ⟨hu, fun m _ => ih m⟩
    rw [run_concat]
    rcases O.step_cases (O.run steps) s with ⟨n, op, -, hs⟩ | ⟨n, kind, -, hs⟩ |
      ⟨n, i, t, -, -, hs⟩ | ⟨n, i, -, -, hs⟩
    · rw [hs]
      exact hwrite n _ (hupdate n op _ (ih n))
    · rw [hs]
      exact hwrite n _ (hemit n kind _ (ih n))
    · rw [hs]
      exact hwrite n _ (hmerge n _ t (ih n))
    · rw [hs]
      exact ih

/-- The invariant rule: a property of single states that holds initially and is
kept by every local operation, emission and merge holds of every state held in a
run, provided the run performs only the operations `ok` allows. -/
theorem run_invariant (Inv : σ → Prop) (ok : ν → ω → Prop) (hinit : Inv O.init)
    (hupdate : ∀ n op s, ok n op → Inv s → Inv (O.update n op s))
    (hemit : ∀ kind s, Inv s → Inv (O.emit kind s).2 ∧ ∀ t ∈ (O.emit kind s).1, Inv t)
    (hmerge : ∀ s t, Inv s → Inv t → Inv (O.merge s t))
    (steps : List (Step ν ω ε)) (hok : ∀ n op, Step.update n op ∈ steps → ok n op) :
    ∀ s, (O.run steps).Holds s → Inv s := by
  suffices h : (∀ n, Inv ((O.run steps).state n)) ∧ ∀ t, some t ∈ (O.run steps).pool → Inv t by
    rintro s (⟨n, rfl⟩ | hs)
    · exact h.1 n
    · exact h.2 s hs
  induction steps using reverseRecOn with
  | nil => exact ⟨fun _ => hinit, by simp [initial]⟩
  | append_singleton steps s ih =>
    obtain ⟨hstate, hpool⟩ := ih (fun n op h => hok n op (mem_append_left _ h))
    have hwrite : ∀ n u, Inv u → ∀ m, Inv (Function.update (O.run steps).state n u m) :=
      fun n u hu => (Function.forall_update_iff _ fun _ => Inv).mpr ⟨hu, fun m _ => hstate m⟩
    rw [run_concat]
    rcases O.step_cases (O.run steps) s with ⟨n, op, rfl, hs⟩ | ⟨n, kind, rfl, hs⟩ |
      ⟨n, i, t, rfl, hi, hs⟩ | ⟨n, i, rfl, -, hs⟩
    · rw [hs]
      exact ⟨hwrite n _ (hupdate n op _ (hok n op (by simp)) (hstate n)), hpool⟩
    · rw [hs]
      obtain ⟨hown, hout⟩ := hemit kind _ (hstate n)
      refine ⟨hwrite n _ hown, ?_⟩
      intro t ht
      rcases mem_append.mp ht with ht | ht
      · exact hpool t ht
      · exact hout t (mem_singleton.mp ht).symm
    · rw [hs]
      exact ⟨hwrite n _ (hmerge _ t (hstate n) (hpool t (mem_of_getElem? hi))), hpool⟩
    · rw [hs]
      exact ⟨hstate, hpool⟩

end Object
end GoAkt.ReplicaRuns
