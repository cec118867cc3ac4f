import GoAkt.SenderActivation

/-!
# Draining the active senders

While no producer is at work every call of the consumer takes a message, drops a sender
whose queue is empty, or finds no sender. A sender on the queue is worth as many calls as
its pending counter says, and at least one, so the calls that take all messages are bounded.
-/
namespace GoAkt.Actor.Activation
open Function List
variable {κ : Type} {s s' : Activation κ}

/-- What the consumer does while no producer is at work: it finds no sender only if there is
none, and no message only if there is none. -/
def Alone (s : Activation κ) : ActivationEvent κ → Prop
  | .store _ _ => False
  | .count _ => False
  | .announce _ => False
  | .activate _ => False
  | .push _ => False
  | .nothing => s.waiting = []
  | .miss => ∀ k, s.consumer = .holding k → s.taken k = s.stored k
  | _ => True

/-- The calls a sender on the queue is worth. -/
def weight (s : Activation κ) (k : κ) : ℕ := max (s.pending k).toNat 1

/-- The calls that the rest of the current call is worth. -/
def callWeight (s : Activation κ) : ConsumerTurn κ → ℕ
  | .away => 0
  | .holding k => s.weight k
  | .missing _ => 1
  | .took k => s.weight k
  | .discounted k => s.weight k
  | .resetting _ => 1
  | .finishing _ => 1
  | .rechecking _ => 1
  | .reactivating _ => 1
  | .pushing k => s.weight k + 1

def work (s : Activation κ) : ℕ := (s.waiting.map s.weight).sum + s.callWeight s.consumer

/-- What the consumer has found out in its call. -/
def Settled (s : Activation κ) : ConsumerTurn κ → Prop
  | .missing k => s.taken k = s.stored k
  | .resetting k => s.pending k ≤ 0
  | .finishing k => s.pending k ≤ 0
  | .rechecking k => s.pending k ≤ 0
  | .reactivating _ => False
  | .pushing k => 0 < s.pending k
  | _ => True

/-- All messages are taken, or the calls made and the work left stay within a budget. -/
structure Draining [DecidableEq κ] (budget : ℕ) (s : Activation κ) : Prop where
  producers : ∀ p, s.producers p = .away
  held : s.Held
  balanced : s.Balanced
  inactive : ∀ k, s.active k = false → s.taken k = s.stored k
  settled : s.Settled s.consumer
  budgeted : (∀ k, s.taken k = s.stored k) ∨ s.calls + s.work ≤ budget

lemma one_le_weight (k : κ) : 1 ≤ s.weight k := le_max_right _ _

variable {k : κ}

lemma not_mem_waiting (hheld : s.Held) (hc : s.consumer.token = some k) : k ∉ s.waiting := by
  intro hmem
  obtain ⟨i, hi, hget⟩ := mem_iff_getElem.mp hmem
  have hqueue : s.Holds k (.queue (s.popped + i)) := by
    rw [holds_queue_iff, List.getElem?_eq_getElem hi, hget]
  have hconsumer : s.Holds k .consumer := hc
  cases (hheld k).unique hqueue hconsumer

variable [DecidableEq κ] {budget : ℕ}

lemma Draining.stored_le (h : s.Draining budget) (k : κ) :
    (s.stored k : ℤ) - s.taken k + s.consumer.owed k ≤ s.pending k := by
  have hnone : s.late k = ∅ := by
    ext p
    simp [late, h.producers p, ProducerTurn.Late]
  have hpending := h.balanced.pending_ge k
  rw [hnone] at hpending
  simpa using hpending

lemma Draining.all_taken (h : s.Draining budget) (hc : s.consumer.token = none)
    (hwaiting : s.waiting = []) (k : κ) : s.taken k = s.stored k := by
  refine h.inactive k ?_
  by_contra hactive
  have hmem : k ∈ s.waiting := by
    refine mem_waiting h.held (fun p k' hp => ?_) hc (by simpa using hactive)
    cases (h.producers p).symm.trans hp
  rw [hwaiting] at hmem
  cases hmem

/-- The pending counter of a sender that is not on the queue changes. -/
lemma sum_setPending (hk : k ∉ s.waiting) (n : ℤ) :
    (s.waiting.map (s.setPending k n).weight).sum = (s.waiting.map s.weight).sum := by
  congr 1
  refine map_congr_left fun k' hk' => ?_
  have hne : k' ≠ k := by
    rintro rfl
    exact hk hk'
  simp [weight, setPending, hne]

/-- A step that takes no message. -/
lemma Draining.keep (h : s.Draining budget) {turn : ConsumerTurn κ} (hc : s.consumer = turn)
    (htaken : s'.taken = s.taken) (hstored : s'.stored = s.stored)
    (hwork : s'.calls + s'.work ≤ s.calls + ((s.waiting.map s.weight).sum + s.callWeight turn)) :
    (∀ k, s'.taken k = s'.stored k) ∨ s'.calls + s'.work ≤ budget := by
  subst hc
  rcases h.budgeted with hall | hbudget
  · rw [htaken, hstored]
    exact .inl hall
  · exact .inr (hwork.trans hbudget)

/-- A sender with no message left is marked inactive. -/
lemma Draining.deactivate (h : s.Draining budget) (hall : s.taken k = s.stored k) (k' : κ)
    (hk' : update s.active k false k' = false) : s.taken k' = s.stored k' := by
  by_cases hkk : k' = k
  · rw [hkk, hall]
  · rw [update_of_ne hkk] at hk'
    exact h.inactive k' hk'

lemma Draining.step (h : s.Draining budget) {e : ActivationEvent κ} (halone : s.Alone e)
    (hstep : s.consumerStep s.consumer e = some s') : s'.Draining budget := by
  have hle := h.balanced.popped_le
  have hheld := h.held.consumerStep hle hstep
  have hsettled := h.settled
  have hbalanced := h.balanced.consumerStep (fun _ k hc => by rw [hc] at hsettled; exact hsettled)
    hstep
  unfold Activation.consumerStep at hstep
  split at hstep <;> try cases hstep
  next hc =>
    have hall := h.all_taken (by rw [hc]; rfl) halone
    exact ⟨h.producers, hheld, hbalanced, h.inactive, trivial, .inl hall⟩
  next hc =>
    obtain ⟨k₀, hpop, rfl⟩ := Option.map_eq_some_iff.mp hstep
    refine ⟨h.producers, hheld, hbalanced, h.inactive, trivial, h.keep hc rfl rfl ?_⟩
    obtain ⟨hlt, hget⟩ := List.getElem?_eq_some_iff.mp hpop
    rw [waiting, drop_eq_getElem_cons hlt, hget, map_cons, sum_cons]
    change s.calls + (((s.pushed.drop (s.popped + 1)).map s.weight).sum + s.weight k₀) ≤ _
    omega
  next k₀ hc =>
    refine ⟨h.producers, hheld, hbalanced, h.inactive, halone k₀ hc, h.keep hc rfl rfl ?_⟩
    exact Nat.add_le_add_left (Nat.add_le_add_left (one_le_weight k₀) _) _
  next k₀ hc =>
    rw [hc] at hsettled
    refine ⟨h.producers, hheld, hbalanced, h.deactivate hsettled, trivial, h.keep hc rfl rfl ?_⟩
    change s.calls + 1 + ((s.waiting.map s.weight).sum + 0) ≤ s.calls + (_ + 1)
    omega
  next k₀ hc =>
    obtain ⟨hlt, rfl⟩ := Interleavings.allow_eq_some.mp hstep
    have hactive : s.active k₀ = true :=
      (h.held k₀).isPresent (h := .consumer) (by rw [Holds, hc]; rfl)
    refine ⟨h.producers, hheld, hbalanced, fun k hk => ?_, trivial, .inr ?_⟩
    · have hne : k ≠ k₀ := by
        rintro rfl
        cases hactive.symm.trans hk
      exact (update_of_ne hne ..).trans (h.inactive k hk)
    · rcases h.budgeted with hall | hbudget
      · exact absurd (hall k₀) hlt.ne
      · change s.calls + ((s.waiting.map s.weight).sum + s.callWeight s.consumer) ≤ budget
          at hbudget
        rw [hc] at hbudget
        exact hbudget
  next k₀ hc =>
    exact ⟨h.producers, hheld, hbalanced, h.inactive, trivial, h.keep hc rfl rfl le_rfl⟩
  next k₀ hc =>
    have hmem : k₀ ∉ s.waiting := not_mem_waiting h.held (by rw [hc]; rfl)
    have hsum := sum_setPending hmem (s.pending k₀ - 1)
    have hnew : (s.setPending k₀ (s.pending k₀ - 1)).pending k₀ = s.pending k₀ - 1 := update_self ..
    have hone := one_le_weight (s := s) k₀
    refine ⟨h.producers, hheld, hbalanced, h.inactive, ?_, h.keep hc rfl rfl ?_⟩
    · change Settled (s.setPending k₀ (s.pending k₀ - 1)) (ite _ _ _)
      split_ifs with hpos hneg
      · rw [Settled, hnew]
        exact hpos
      · rw [Settled, hnew]
        exact hneg.le
      · rw [Settled, hnew]
        exact not_lt.mp hpos
    · change s.calls + ((s.waiting.map (s.setPending k₀ (s.pending k₀ - 1)).weight).sum +
        callWeight (s.setPending k₀ (s.pending k₀ - 1)) (ite _ _ _)) ≤ s.calls + (_ + s.weight k₀)
      rw [hsum]
      split_ifs with hpos hneg
      · simp only [callWeight, weight, hnew]
        omega
      · simp only [callWeight]
        omega
      · simp only [callWeight]
        omega
  next k₀ hc =>
    have hmem : k₀ ∉ s.waiting := not_mem_waiting h.held (by rw [hc]; rfl)
    have hsum := sum_setPending hmem 0
    refine ⟨h.producers, hheld, hbalanced, h.inactive, ?_, h.keep hc rfl rfl ?_⟩
    · exact (update_self k₀ (0 : ℤ) s.pending).le
    · rw [← hsum]
      rfl
  next k₀ hc =>
    have hstored := h.stored_le k₀
    have htaken := h.balanced.taken_le k₀
    rw [hc] at hsettled hstored
    refine ⟨h.producers, hheld, hbalanced, h.deactivate ?_, hsettled, h.keep hc rfl rfl le_rfl⟩
    simp only [Settled, ConsumerTurn.owed] at hsettled hstored
    omega
  next k₀ hc =>
    rw [hc] at hsettled
    have hnot : ¬0 < s.pending k₀ := not_lt.mpr hsettled
    rw [if_neg hnot] at hheld hbalanced ⊢
    refine ⟨h.producers, hheld, hbalanced, h.inactive, trivial, h.keep hc rfl rfl ?_⟩
    change s.calls + 1 + ((s.waiting.map s.weight).sum + 0) ≤ s.calls + (_ + 1)
    omega
  next k₀ hc =>
    rw [hc] at hsettled
    cases hsettled
  next k₀ hc =>
    refine ⟨h.producers, hheld, hbalanced, h.inactive, trivial, h.keep hc rfl rfl ?_⟩
    change s.calls + 1 + ((((s.pushed ++ [k₀]).drop s.popped).map s.weight).sum + 0) ≤
      s.calls + (_ + (s.weight k₀ + 1))
    rw [drop_append_of_le_length hle, ← waiting, map_append, sum_append, map_singleton,
      sum_singleton]
    omega

/-- From a state in which nobody is at work. -/
lemma Quiet.draining (hquiet : s.Quiet) (h : s.Sound) : s.Draining (s.calls + s.work) where
  producers := hquiet.producers
  held := h.held
  balanced := h.balanced
  inactive k hk := by
    by_contra hne
    have hlt := lt_of_le_of_ne (h.balanced.taken_le k) hne
    cases (hquiet.active_of_taken_lt h hlt).symm.trans hk
  settled := by
    rw [hquiet.consumer]
    trivial
  budgeted := .inr le_rfl

/-- When the budget is used up, everything is taken. -/
lemma Draining.finished (h : s.Draining budget) (hcalls : budget < s.calls) (k : κ) :
    s.taken k = s.stored k := by
  rcases h.budgeted with hall | hbudget
  · exact hall k
  · omega

end GoAkt.Actor.Activation
