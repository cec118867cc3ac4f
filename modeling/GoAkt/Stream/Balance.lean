import GoAkt.Stream.FanOut

/-!
# Balance

The hub of a `Balance` requests the sum of what its slots want and gives each element to the
next slot with demand. As long as no more elements are under way than the live slots want, every
element finds a slot. A slot that cancels takes its demand away, but not the elements that were
requested for it.
-/
namespace GoAkt.Stream
open GoAkt.Interleavings List
namespace HubActor
variable {a : HubActor} {c : ℕ}

/-- A slot to which an element can go. -/
def Ready (a : HubActor) (i : ℕ) : Prop := a.slots i = true ∧ 0 < a.demand i

/-- The cursor reaches every slot. -/
lemma cursor_reaches (a : HubActor) {i : ℕ} (hi : i < a.n) :
    ∃ k < a.n, (a.nextSlot + k) % a.n = i := by
  have hlt := Nat.mod_lt a.nextSlot (Nat.zero_lt_of_lt hi)
  refine ⟨(i + (a.n - a.nextSlot % a.n)) % a.n, Nat.mod_lt _ (Nat.zero_lt_of_lt hi), ?_⟩
  have hsum : a.nextSlot % a.n + (i + (a.n - a.nextSlot % a.n)) = i + a.n := by omega
  rw [Nat.add_mod_mod, ← Nat.mod_add_mod, hsum, Nat.add_mod_right, Nat.mod_eq_of_lt hi]

/-- If there is demand then a slot is chosen. -/
lemma chosen_of_pos (h : 0 < a.totalDemand) : ∃ c, a.chosen = some c := by
  by_contra hnone
  have hidle := List.find?_eq_none.mp (Option.eq_none_iff_forall_ne_some.mpr (not_exists.mp hnone))
  have hzero : a.totalDemand ≤ (a.live.map fun _ => (0 : ℤ)).sum := sum_le_sum fun i hi => ?_
  · simp only [map_const', sum_replicate, smul_zero] at hzero
    omega
  obtain ⟨hn, hlive⟩ := mem_filter.mp hi
  obtain ⟨k, hk, hki⟩ := a.cursor_reaches (mem_range.mp hn)
  have hi' := hidle i (mem_map.mpr ⟨k, mem_range.mpr hk, hki⟩)
  simpa [hlive] using hi'

end HubActor

open HubActor
namespace FanOut
variable {V E : Type*} {s s' : FanOut V E}

/-- The slot after the one that was served last. -/
def first (s : FanOut V E) : ℕ := (s.routed.getLast?.elim 0 (·.1 + 1)) % s.hub.n

structure Balanced (n : ℕ) (s : FanOut V E) : Prop where
  books : Books s
  size : s.hub.n = n
  covered : s.hubStopped = false → s.hub.pending ≤ s.hub.totalDemand
  routed : s.routed.map Prod.snd = elements s.received
  next : s.hub.nextSlot = s.first

section Step
variable {n : ℕ}

/-- A turn that ends with a pull. -/
lemma Balanced.pull {m : HubInbox V E} {a : HubActor} {tells : List (ℕ × HubMessage V E)}
    (hbooks : Books (s.hubTurn balanceHubActor m))
    (hturn : s.hub.receive balanceHubActor m = a.maybePull balanceHubActor tells)
    (hpending : 0 ≤ a.pending) (hsize : a.n = n) (hcovered : a.pending ≤ a.totalDemand)
    (hrouted : (s.routed ++ routes tells).map Prod.snd = elements (s.received ++ signalOf m))
    (hnext : a.nextSlot = ((s.routed ++ routes tells).getLast?.elim 0 (·.1 + 1)) % a.n) :
    Balanced n (s.hubTurn balanceHubActor m) := by
  obtain ⟨p, heq, hp⟩ := hubTurn_pull hturn hpending
  rw [heq] at hbooks ⊢
  refine ⟨hbooks, hsize, fun _ => ?_, hrouted, hnext⟩
  rcases hp with ⟨rfl, -⟩ | ⟨rfl, -⟩
  · exact hcovered
  · exact le_rfl

/-- While the hub runs, an element that may arrive finds a slot. -/
lemma Balanced.chosen (h : Balanced n s) (hrun : s.hubStopped = false) (hroom : 1 ≤ s.outstanding) :
    ∃ c, s.hub.chosen = some c := by
  have hpos : 0 < s.hub.pending := h.books.outstanding ▸ hroom
  exact chosen_of_pos (hpos.trans_le (h.covered hrun))

end Step

end FanOut
end GoAkt.Stream
