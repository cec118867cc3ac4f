import GoAkt.Stream.LeastDemand

/-!
# Broadcast

The hub of a `Broadcast` tells every element to all its live slots. A branch that has not cancelled
gets what the upstream sends. A slot that cancels before it knows the hub stays live for the hub,
wants nothing and holds up all others.
-/
namespace GoAkt.Stream
open GoAkt.Interleavings List HubActor

lemma shares_broadcast (a : HubActor) : Shares broadcastHubActor (fun _ => true) a := by
  refine ⟨rfl, fun i => ?_⟩
  simp [broadcastHubActor, live, (nodup_range.filter _).count]

namespace FanOut
variable {V E : Type*} {s : FanOut V E}

/-- If no slot cancels before it knows the hub, every branch that has not cancelled gets what the
upstream sends, in order and never more than it requested. No demand becomes negative, and while
all these branches want elements and no message is under way, the hub has requested some. -/
theorem broadcast_serves {n : ℕ} {events : List (Event V E)}
    (hrun : (system broadcastHubActor broadcastSlotActor n).run events = some s)
    (hsafe : ¬(system broadcastHubActor broadcastSlotActor n).Took EarlyCancel events) :
    (∀ i < n, (s.branch i).cancelled = false →
        (s.branch i).delivered ++ relayed (s.branch i).down = s.received) ∧
      (∀ i, ((elements (s.branch i).delivered).length : ℤ) ≤ (s.branch i).asked) ∧
      (∀ i, 0 ≤ s.hub.demand i) ∧
      ((∃ i < n, (s.branch i).cancelled = false) →
        (∀ i < n, (s.branch i).cancelled = false →
          ((elements (s.branch i).delivered).length : ℤ) < (s.branch i).asked) →
        s.hub.upstream = true → (∀ i < n, (s.branch i).up = [] ∧ (s.branch i).down = []) →
        (∀ t ∈ s.received, Terminal t = false) → 0 < s.outstanding) := by
  have h : Serving (fun _ _ => true) n s := by
    refine System.safe_invariant (serving_start _ false n) (fun s e s' h hstep => ?_) hsafe hrun
    exact serving_step h (shares_broadcast _) (fun _ _ _ => rfl) hstep
  refine ⟨fun i hi hb => ?_, h.delivered_le, fun i => (h.books.ledger i).demand_nonneg, h.requests⟩
  refine ((h.fed i hi).relay hb).trans (filter_eq_self.mpr fun sig _ => ?_)
  cases sig <;> rfl

/-- Two branches and two elements. -/
def bothServed : List (Event ℕ Empty) :=
  [.wire, .toSlot 0, .toSlot 1, .request 0 2, .request 1 1, .toHub 0, .toHub 1,
    .upstream (.element 7), .cancel 1, .toHub 1, .upstream (.element 8), .toSlot 0, .toSlot 0,
    .toSlot 1]

theorem broadcast_serves_bothServed :
    ∃ s, (system broadcastHubActor broadcastSlotActor 2).run bothServed = some s ∧
      (s.branch 0).delivered = [.element 7, .element 8] ∧
      (s.branch 0).delivered ++ relayed (s.branch 0).down = s.received := by
  obtain ⟨s, hrun, hsafe, hcancelled, hdelivered⟩ := System.exists_safe_run
    (system broadcastHubActor broadcastSlotActor 2) bothServed (fun s =>
      (s.branch 0).cancelled = false ∧ (s.branch 0).delivered = [.element 7, .element 8])
    not_earlyCancel (by decide +kernel)
  exact ⟨s, hrun, hdelivered, (broadcast_serves hrun hsafe).1 0 (by decide) hcancelled⟩

/-- The second branch cancels before the hub is known to its slot. The first one wants an element
and no message is under way, but the hub has requested nothing. -/
theorem broadcast_stalls :
    ((system broadcastHubActor broadcastSlotActor 2).run [.cancel 1, .wire, .toSlot 0, .toSlot 1,
        .request 0 1, .toHub 0]).map
      (fun s : FanOut ℕ Empty => ((s.branch 0).cancelled, (s.branch 0).asked, s.outstanding)) =
        some (false, 1, 0) ∧
    ((system broadcastHubActor broadcastSlotActor 2).run [.cancel 1, .wire, .toSlot 0, .toSlot 1,
        .request 0 1, .toHub 0]).map
      (fun s : FanOut ℕ Empty => ((s.branch 0).up ++ (s.branch 1).up,
        (s.branch 0).down ++ (s.branch 1).down, s.received)) = some ([], [], []) := by
  decide +kernel

end FanOut

/-!
# Partition

The hub of a `Partition` tells each element to the slot that the partition function names, and
drops it if there is no such slot or it has cancelled. As in a `Broadcast`, a slot that cancels
before it knows the hub holds up all others.
-/

/-- The hub of a `Partition` at an element that is meant for a slot. -/
def partitionHubActor (slot : ℤ) : HubKind where
  pull := minDemand
  route a := if 0 ≤ slot ∧ slot < a.n ∧ a.slots slot.toNat = true then [slot.toNat] else []
  cursor a _ := a.nextSlot

lemma shares_partition (slot : ℤ) (a : HubActor) :
    Shares (partitionHubActor slot) (fun i => (i : ℤ) = slot) a := by
  refine ⟨rfl, fun i => ?_⟩
  simp only [partitionHubActor, mem_live]
  grind

namespace FanOut
variable {V E : Type*} {s : FanOut V E} (partitionFn : V → ℤ)

/-- The slot of the element that arrives, if one does. -/
def slotOf : Event V E → ℤ
  | .upstream (.element v) => partitionFn v
  | _ => -1

/-- A hub with `n` branches. -/
def partitionSystem (n : ℕ) : System (FanOut V E) (Event V E) where
  start := ⟨.new n, false, fun _ => .new partitionSlotActor, [], 0, []⟩
  step s e := step (partitionHubActor (slotOf partitionFn e)) s e

/-- If no slot cancels before it knows the hub, every branch that has not cancelled gets the
elements that are mapped to its index and the end of the stream, in order and never more than it
requested. No demand becomes negative, and while all these branches want elements and no message
is under way, the hub has requested some. -/
theorem partition_routes {n : ℕ} {events : List (Event V E)}
    (hrun : (partitionSystem partitionFn n).run events = some s)
    (hsafe : ¬(partitionSystem partitionFn n).Took EarlyCancel events) :
    (∀ i < n, (s.branch i).cancelled = false →
        (s.branch i).delivered ++ relayed (s.branch i).down =
          share (partitionFn · = i) s.received) ∧
      (∀ i, ((elements (s.branch i).delivered).length : ℤ) ≤ (s.branch i).asked) ∧
      (∀ i, 0 ≤ s.hub.demand i) ∧
      ((∃ i < n, (s.branch i).cancelled = false) →
        (∀ i < n, (s.branch i).cancelled = false →
          ((elements (s.branch i).delivered).length : ℤ) < (s.branch i).asked) →
        s.hub.upstream = true → (∀ i < n, (s.branch i).up = [] ∧ (s.branch i).down = []) →
        (∀ t ∈ s.received, Terminal t = false) → 0 < s.outstanding) := by
  have h : Serving (fun i v => partitionFn v = i) n s := by
    refine System.safe_invariant (serving_start _ true n) (fun s e s' h hstep => ?_) hsafe hrun
    refine serving_step h (shares_partition (slotOf partitionFn e) _) (fun v he i => ?_) hstep
    simp [he, slotOf, eq_comm]
  exact ⟨fun i hi => (h.fed i hi).relay, h.delivered_le, fun i => (h.books.ledger i).demand_nonneg,
    h.requests⟩

/-- Even numbers go to the first branch and odd ones to the second. -/
def evenAndOdd : List (Event ℕ Empty) :=
  [.wire, .toSlot 0, .toSlot 1, .request 0 2, .request 1 2, .toHub 0, .toHub 1,
    .upstream (.element 7), .upstream (.element 8), .upstream .complete, .toSlot 0, .toSlot 0,
    .toSlot 1]

theorem partition_routes_evenAndOdd :
    ∃ s, (partitionSystem (fun v : ℕ => (v % 2 : ℤ)) 2).run evenAndOdd = some s ∧
      (s.branch 0).delivered = [.element 8, .complete] ∧
      (s.branch 0).delivered ++ relayed (s.branch 0).down =
        share (fun v : ℕ => (v % 2 : ℤ) = (0 : ℕ)) s.received := by
  obtain ⟨s, hrun, hsafe, hcancelled, hdelivered⟩ := System.exists_safe_run
    (partitionSystem (fun v : ℕ => (v % 2 : ℤ)) 2) evenAndOdd (fun s =>
      (s.branch 0).cancelled = false ∧ (s.branch 0).delivered = [.element 8, .complete])
    not_earlyCancel (by decide +kernel)
  exact ⟨s, hrun, hdelivered, (partition_routes _ hrun hsafe).1 0 (by decide) hcancelled⟩

/-- The second branch cancels before the hub is known to its slot. The first one wants an element
and no message is under way, but the hub has requested nothing. -/
theorem partition_stalls :
    ((partitionSystem (fun v : ℕ => (v % 2 : ℤ)) 2).run [.cancel 1, .wire, .toSlot 0, .toSlot 1,
        .request 0 1, .toHub 0]).map
      (fun s : FanOut ℕ Empty => ((s.branch 0).cancelled, (s.branch 0).asked, s.outstanding,
        ((s.branch 0).up ++ (s.branch 1).up).length,
        ((s.branch 0).down ++ (s.branch 1).down).length, s.received.length)) =
      some (false, 1, 0, 0, 0, 0) := by
  decide +kernel

end FanOut
end GoAkt.Stream
