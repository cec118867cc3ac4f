import GoAkt.Crdt
import GoAkt.GrowOnlySlots

/-!
# Grow-only and positive-negative counters

A counter keeps one `uint64` slot per node and merges by taking the larger slot.
A delta carries the accumulated slots of the nodes that changed since the last
reset. The positive-negative counter is a pair of grow-only counters, and its
delta carries only the half that changed: a lost delta of one half is not made
good by a later delta of the other half.
-/
namespace GoAkt.Crdt
open GoAkt.FiniteMaps GoAkt.Joins GoAkt.ReplicaRuns GoAkt.GrowOnlySlots List

/-- The field `changes` is the field `delta` of the source. -/
structure GCounter where
  state : Map NodeID UInt64
  changes : Map NodeID UInt64

def newGCounter : GCounter := ⟨∅, ∅⟩

namespace GCounter

def increment (c : GCounter) (nodeID : NodeID) (value : UInt64) : GCounter where
  state := c.state.insert nodeID ((c.state.lookup nodeID).getD 0 + value)
  changes := c.changes.insert nodeID ((c.changes.lookup nodeID).getD 0 + value)

def value (c : GCounter) : UInt64 := c.state.foldl (fun total _ v => total + v) 0

/-- The body of the loop of `merge`. -/
def takeLarger (merged : Map NodeID UInt64) (nodeID : NodeID) (remoteVal : UInt64) :
    Map NodeID UInt64 :=
  match merged.lookup nodeID with
  | none => merged.insert nodeID remoteVal
  | some localVal => if remoteVal > localVal then merged.insert nodeID remoteVal else merged

def merge (c o : GCounter) : GCounter := { c with state := o.state.foldl takeLarger c.state }

def delta (c : GCounter) : Option GCounter :=
  if c.changes.entries.length = 0 then none
  else some ⟨collect c.changes.keys fun nodeID => some ((c.state.lookup nodeID).getD 0), ∅⟩

def resetDelta (c : GCounter) : GCounter := { c with changes := ∅ }

instance : ReplicatedData GCounter where
  merge := merge
  delta := delta
  resetDelta := resetDelta
  compactData _ := none

/-- The slot of a node as a number; a missing slot reads as zero. -/
def slot (c : GCounter) (n : NodeID) : ℕ := ((c.state.lookup n).getD 0).toNat

@[simp] lemma slot_new (n : NodeID) : slot newGCounter n = 0 := by
  simp [slot, newGCounter]

lemma slot_increment (c : GCounter) (n m : NodeID) (v : UInt64) :
    slot (c.increment n v) m = if m = n then (slot c m + v.toNat) % 2 ^ 64 else slot c m := by
  simp only [slot, increment, lookup_insert_ite]
  split_ifs with h
  · subst m
    simp [UInt64.toNat_add]
  · rfl

@[simp] lemma slot_resetDelta (c : GCounter) (n : NodeID) : slot c.resetDelta n = slot c n := rfl

lemma slot_merge (c o : GCounter) (n : NodeID) :
    slot (c.merge o) n = max (slot c n) (slot o n) := by
  have hown : ∀ (acc : Map NodeID UInt64) (m : NodeID) (v : UInt64) (j : NodeID),
      (takeLarger acc m v).lookup j =
        if j = m then some (((acc.lookup m).elim v fun w => if v > w then v else w))
        else acc.lookup j := by
    intro acc m v j
    unfold takeLarger
    by_cases hj : j = m
    · subst j
      cases hm : acc.lookup m with
      | none => simp
      | some w =>
        by_cases hlt : v > w
        · simp [hlt]
        · simp [hlt, hm]
    · cases hm : acc.lookup m with
      | none => simp [hj, AList.lookup_insert_ne hj]
      | some w =>
        by_cases hlt : v > w
        · simp [hlt, hj, AList.lookup_insert_ne hj]
        · simp [hlt, hj]
  have hloop := lookup_foldl_own takeLarger
    (fun _ v o => some (o.elim v fun w => if v > w then v else w)) hown o.state c.state n
  simp only [slot, merge, hloop]
  cases ho : o.state.lookup n with
  | none => simp
  | some v =>
    cases hc : c.state.lookup n with
    | none => simp
    | some w =>
      simp only [Option.elim_some, Option.getD_some]
      split_ifs with hlt
      · exact (Nat.max_eq_right (UInt64.lt_iff_toNat_lt.mp hlt).le).symm
      · exact (Nat.max_eq_left (UInt64.le_iff_toNat_le.mp (UInt64.not_lt.mp hlt))).symm

/-- Two counters with the same slots. -/
def SameSlots (c o : GCounter) : Prop := ∀ n, slot c n = slot o n

lemma merge_joinOn : JoinOn (fun _ => True) SameSlots merge where
  equivalence := ⟨fun _ _ => rfl, fun h n => (h n).symm, fun h h' n => (h n).trans (h' n)⟩
  closed _ _ := trivial
  congr _ _ _ _ h h' n := by rw [slot_merge, slot_merge, h n, h' n]
  comm _ _ n := by rw [slot_merge, slot_merge, max_comm]
  assoc _ _ _ n := by rw [slot_merge, slot_merge, slot_merge, slot_merge, max_assoc]
  idem _ n := by rw [slot_merge, max_self]

variable {c d : GCounter}

/-- A delta carries the slots of the nodes with changes, and no others. -/
lemma slot_delta (h : c.delta = some d) (n : NodeID) :
    slot d n = if n ∈ c.changes.keys then slot c n else 0 := by
  unfold delta at h
  split_ifs at h
  cases h
  simp only [slot, lookup_collect]
  split_ifs <;> rfl

lemma exists_change_of_delta (h : c.delta = some d) : ∃ n, n ∈ c.changes.keys := by
  unfold delta at h
  split_ifs at h with hlen
  obtain ⟨e, he⟩ := exists_mem_of_length_pos (Nat.pos_of_ne_zero hlen)
  exact ⟨e.1, mem_map.mpr ⟨e, he, rfl⟩⟩

lemma mem_keys_of_delta (h : c.delta = some d) {n : NodeID}
    (hn : n ∈ d.state.keys) : n ∈ c.changes.keys := by
  unfold delta at h
  split_ifs at h
  cases h
  rw [mem_keys_iff_lookup, lookup_collect] at hn
  by_contra hnot
  simp [hnot] at hn

/-- The value is the sum of all stored slots, with wrap-around. -/
lemma value_toNat (c : GCounter) :
    c.value.toNat = (∑ n ∈ c.state.keys.toFinset, slot c n) % 2 ^ 64 := by
  have hloop : ∀ (entries : List (Sigma fun _ : NodeID => UInt64)) (acc : UInt64),
      (entries.foldl (fun total e => total + e.2) acc).toNat =
        (acc.toNat + (entries.map fun e => e.2.toNat).sum) % 2 ^ 64 := by
    intro entries
    induction entries with
    | nil => simp [Nat.mod_eq_of_lt (UInt64.toNat_lt _)]
    | cons e entries ih =>
      intro acc
      rw [foldl_cons, ih, UInt64.toNat_add, map_cons, sum_cons, Nat.mod_add_mod, Nat.add_assoc]
  have hslots : (c.state.entries.map fun e => e.2.toNat) = c.state.keys.map (slot c) := by
    rw [AList.keys, List.keys, map_map]
    refine map_congr_left fun e he => ?_
    simp [slot, (mem_entries_iff_lookup c.state e.1 e.2).mp he]
  rw [value, AList.foldl, hloop, hslots, sum_toFinset _ c.state.keys_nodup]
  simp

end GCounter

open GCounter

structure PNCounter where
  increments : GCounter
  decrements : GCounter

def newPNCounter : PNCounter := ⟨newGCounter, newGCounter⟩

/-- The two halves of a positive-negative counter. -/
inductive Sign where
  | plus
  | minus
  deriving DecidableEq, Repr

namespace PNCounter

def half (c : PNCounter) : Sign → GCounter
  | .plus => c.increments
  | .minus => c.decrements

def increment (c : PNCounter) (nodeID : NodeID) (value : UInt64) : PNCounter :=
  { c with increments := c.increments.increment nodeID value }

def decrement (c : PNCounter) (nodeID : NodeID) (value : UInt64) : PNCounter :=
  { c with decrements := c.decrements.increment nodeID value }

/-- Both conversions and the subtraction wrap around. -/
def value (c : PNCounter) : Int64 := c.increments.value.toInt64 - c.decrements.value.toInt64

def merge (c o : PNCounter) : PNCounter :=
  ⟨c.increments.merge o.increments, c.decrements.merge o.decrements⟩

/-- A half without changes is sent as an empty counter. -/
def delta (c : PNCounter) : Option PNCounter :=
  match c.increments.delta, c.decrements.delta with
  | none, none => none
  | incDelta, decDelta => some ⟨incDelta.getD newGCounter, decDelta.getD newGCounter⟩

def resetDelta (c : PNCounter) : PNCounter := ⟨c.increments.resetDelta, c.decrements.resetDelta⟩

instance : ReplicatedData PNCounter where
  merge := merge
  delta := delta
  resetDelta := resetDelta
  compactData _ := none

lemma value_toInt (c : PNCounter) : c.value.toInt =
    ((c.increments.value.toNat : ℤ) - c.decrements.value.toNat).bmod (2 ^ 64) := by
  have hconv : ∀ x : UInt64, x.toInt64.toInt = (x.toNat : ℤ).bmod (2 ^ 64) :=
    fun x => BitVec.toInt_eq_toNat_bmod x.toBitVec
  rw [value, Int64.toInt_sub, hconv, hconv, Int.bmod_sub_bmod, Int.sub_bmod_bmod]

lemma half_of_delta {c d : PNCounter} (h : c.delta = some d) (sign : Sign) :
    d.half sign = (c.half sign).delta.getD newGCounter := by
  unfold delta at h
  split at h
  · cases h
  · cases h
    cases sign <;> rfl

@[simp] lemma half_merge (c o : PNCounter) (sign : Sign) :
    (c.merge o).half sign = (c.half sign).merge (o.half sign) := by cases sign <;> rfl

@[simp] lemma half_resetDelta (c : PNCounter) (sign : Sign) :
    c.resetDelta.half sign = (c.half sign).resetDelta := by cases sign <;> rfl

end PNCounter

/-! ## Runs of counters -/

/-- What a replica may send: its delta, which is then reset, or its whole state. -/
inductive Emission where
  | delta
  | full
  deriving DecidableEq, Repr

def emitData {V : Type*} [ReplicatedData V] : Emission → V → Option V × V
  | .delta, c => (ReplicatedData.delta c, ReplicatedData.resetDelta c)
  | .full, c => (some c, c)

def gcounters : Object NodeID UInt64 Emission GCounter where
  init := newGCounter
  update nodeID value c := c.increment nodeID value
  emit := emitData
  merge := GCounter.merge

inductive PNOp where
  | increment (value : UInt64)
  | decrement (value : UInt64)
  deriving DecidableEq, Repr

namespace PNOp

def apply (nodeID : NodeID) : PNOp → PNCounter → PNCounter
  | increment v, c => c.increment nodeID v
  | decrement v, c => c.decrement nodeID v

def sign : PNOp → Sign
  | increment _ => .plus
  | decrement _ => .minus

def value : PNOp → UInt64
  | increment v => v
  | decrement v => v

/-- What the operation adds to the slot of one half. -/
def amount (sign : Sign) (op : PNOp) : ℕ := if op.sign = sign then op.value.toNat else 0

lemma half_apply (op : PNOp) (n : NodeID) (c : PNCounter) (sign : Sign) :
    (op.apply n c).half sign =
      if op.sign = sign then (c.half sign).increment n op.value else c.half sign := by
  cases op <;> cases sign <;> rfl

end PNOp

open PNOp

def pncounters : Object NodeID PNOp Emission PNCounter where
  init := newPNCounter
  update := PNOp.apply
  emit := emitData
  merge := PNCounter.merge

/-- The slots of a delta, whether or not there is one. -/
lemma slot_delta_getD (c : GCounter) (n : NodeID) :
    GCounter.slot (c.delta.getD newGCounter) n = 0 ∨
      GCounter.slot (c.delta.getD newGCounter) n = c.slot n := by
  cases hd : c.delta with
  | none => exact .inl (by simp)
  | some d =>
    rw [Option.getD_some, slot_delta hd]
    split_ifs
    · exact .inr rfl
    · exact .inl rfl

lemma gcounters_slots : SlotObject gcounters (2 ^ 64) UInt64.toNat GCounter.slot where
  init := slot_new
  update_own n v c h := by
    change slot (c.increment n v) n = _
    rw [slot_increment, if_pos rfl, Nat.mod_eq_of_lt h]
  update_other n v c m h := by
    change slot (c.increment n v) m = _
    rw [slot_increment, if_neg h]
  emit_state kind c n := by cases kind <;> rfl
  emit_message kind c t ht n := by
    cases kind with
    | delta =>
      have hd : c.delta = some t := ht
      have := slot_delta_getD c n
      rwa [hd] at this
    | full =>
      cases ht
      exact .inr rfl
  merge := slot_merge

variable (sign : Sign) (steps : List (Step NodeID UInt64 Emission)) (n : NodeID)

/-- Each half of a positive-negative counter has grow-only slots of its own. -/
lemma pncounters_slots : SlotObject pncounters (2 ^ 64) (PNOp.amount sign)
    (fun c => (c.half sign).slot) where
  init n := by cases sign <;> exact slot_new n
  update_own n op c h := by
    change slot ((op.apply n c).half sign) n = _
    unfold amount at h ⊢
    rw [half_apply]
    split_ifs with hs
    · rw [if_pos hs] at h
      rw [slot_increment, if_pos rfl, Nat.mod_eq_of_lt h]
    · rfl
  update_other n op c m h := by
    change slot ((op.apply n c).half sign) m = _
    rw [half_apply]
    split_ifs
    · rw [slot_increment, if_neg h]
    · rfl
  emit_state kind c n := by
    cases kind with
    | delta =>
      change slot (c.resetDelta.half sign) n = _
      simp
    | full => rfl
  emit_message kind c t ht n := by
    cases kind with
    | delta =>
      rw [PNCounter.half_of_delta ht]
      exact slot_delta_getD (c.half sign) n
    | full =>
      cases ht
      exact .inr rfl
  merge c o n := by
    change slot ((c.merge o).half sign) n = _
    rw [PNCounter.half_merge, slot_merge]

/-! ## The values of replicas that have heard everything -/

/-- A replica records changes of its own node only. -/
lemma changes_own : ∀ m ∈ ((gcounters.run steps).state n).changes.keys, m = n := by
  refine gcounters.replica_invariant (fun n c => ∀ m ∈ c.changes.keys, m = n) ?_ ?_ ?_ ?_ steps n
  · intro n m hm
    simp [gcounters, newGCounter] at hm
  · intro n v c hc m hm
    obtain ⟨w, hw⟩ := (mem_keys_iff_lookup _ _).mp hm
    change (c.changes.insert n _).lookup m = some w at hw
    rw [lookup_insert_ite] at hw
    split_ifs at hw with h
    · exact h
    · exact hc m ((mem_keys_iff_lookup _ _).mpr ⟨w, hw⟩)
  · intro n kind c hc m hm
    cases kind with
    | delta =>
      change m ∈ (c.resetDelta).changes.keys at hm
      simp [resetDelta] at hm
    | full => exact hc m hm
  · exact fun n c o hc => hc

/-- Every delta or state a node sends carries the node's own slot. -/
lemma slot_of_emitted {steps : List (Step NodeID UInt64 Emission)} {n : NodeID} {kind : Emission}
    {t : GCounter} (h : (gcounters.emit kind ((gcounters.run steps).state n)).1 = some t) :
    t.slot n = ((gcounters.run steps).state n).slot n := by
  cases kind with
  | delta =>
    have hd : ((gcounters.run steps).state n).delta = some t := h
    obtain ⟨m, hm⟩ := exists_change_of_delta hd
    have hmn := changes_own steps n m hm
    subst hmn
    rw [slot_delta hd, if_pos hm]
  | full =>
    cases h
    rfl

/-- The message has a slot of the node in the given half. -/
def carriesSlot (c : PNCounter) : Prop := n ∈ (c.half sign).state.keys

instance (sign : Sign) (n : NodeID) (c : PNCounter) : Decidable (carriesSlot sign n c) :=
  inferInstanceAs (Decidable (n ∈ (c.half sign).state.keys))

lemma slot_of_carried {sign : Sign} {c t : PNCounter} {n : NodeID} {kind : Emission}
    (h : (pncounters.emit kind c).1 = some t) (hcarries : carriesSlot sign n t) :
    (t.half sign).slot n = (c.half sign).slot n := by
  cases kind with
  | delta =>
    unfold carriesSlot at hcarries
    rw [PNCounter.half_of_delta h] at hcarries ⊢
    cases hd : (c.half sign).delta with
    | none => simp [hd, newGCounter] at hcarries
    | some d =>
      rw [hd, Option.getD_some] at hcarries
      rw [Option.getD_some, slot_delta hd, if_pos (mem_keys_of_delta hd hcarries)]
  | full =>
    cases h
    rfl

/-- A counter whose slots are the totals of a run has the grand total as value. -/
lemma value_of_totals {ω : Type*} {amount : ω → ℕ} {steps : List (Step NodeID ω Emission)}
    {c : GCounter} (h : ∀ n, c.slot n = total amount n steps) :
    c.value.toNat = grandTotal amount steps % 2 ^ 64 := by
  rw [value_toNat, ← sum_total amount steps c.state.keys.toFinset]
  · simp only [h]
  · intro n hn
    rw [← h n] at hn
    rw [mem_toFinset]
    by_contra hkey
    have hnone : c.state.lookup n = none := by
      rw [AList.lookup_eq_none]
      exact hkey
    simp [slot, hnone] at hn

/-- What holds of the grow-only counters of a run. -/
structure GCountersExact (steps : List (Step NodeID UInt64 Emission)) : Prop where
  reached : ∀ c, (gcounters.run steps).Holds c → ∀ n, Reached UInt64.toNat n steps (c.slot n)
  mono : ∀ earlier later, steps = earlier ++ later → ∀ r n,
    ((gcounters.run earlier).state r).slot n ≤ ((gcounters.run steps).state r).slot n
  value : ∀ r, CaughtUp gcounters (fun _ => True) (fun _ _ => True) steps r →
    ((gcounters.run steps).state r).value.toNat = grandTotal UInt64.toNat steps % 2 ^ 64

/-- What holds of the positive-negative counters of a run. A replica has heard
everything only if it has caught up with each half. -/
structure PNCountersExact (steps : List (Step NodeID PNOp Emission)) : Prop where
  reached : ∀ sign c, (pncounters.run steps).Holds c →
    ∀ n, Reached (PNOp.amount sign) n steps ((c.half sign).slot n)
  mono : ∀ sign earlier later, steps = earlier ++ later → ∀ r n,
    (((pncounters.run earlier).state r).half sign).slot n ≤
      (((pncounters.run steps).state r).half sign).slot n
  value : ∀ r, (∀ sign, CaughtUp pncounters (fun op => op.sign = sign) (carriesSlot sign) steps r) →
    -2 ^ 63 ≤ (grandTotal (PNOp.amount .plus) steps - grandTotal (PNOp.amount .minus) steps : ℤ) →
    (grandTotal (PNOp.amount .plus) steps - grandTotal (PNOp.amount .minus) steps : ℤ) < 2 ^ 63 →
    ((pncounters.run steps).state r).value.toInt =
      grandTotal (PNOp.amount .plus) steps - grandTotal (PNOp.amount .minus) steps

lemma gcountersExact
    (hbound : ∀ n, total UInt64.toNat n steps < 2 ^ 64) : GCountersExact steps where
  reached := (gcounters_slots.run_slots steps hbound).held
  mono := by
    rintro earlier later rfl r n
    exact gcounters_slots.slot_mono earlier later hbound r n
  value r hr := by
    refine value_of_totals fun n => ?_
    exact gcounters_slots.slot_of_caughtUp (fun _ h => absurd trivial h)
      (fun _ _ _ _ h _ => slot_of_emitted h) hbound hr n

lemma pncountersExact (steps : List (Step NodeID PNOp Emission))
    (hbound : ∀ sign n, total (PNOp.amount sign) n steps < 2 ^ 64) : PNCountersExact steps where
  reached sign := ((pncounters_slots sign).run_slots steps (hbound sign)).held
  mono := by
    rintro sign earlier later rfl r n
    exact (pncounters_slots sign).slot_mono earlier later (hbound sign) r n
  value r hr hlow hhigh := by
    have hhalf : ∀ sign, (((pncounters.run steps).state r).half sign).value.toNat =
        grandTotal (amount sign) steps % 2 ^ 64 := by
      intro sign
      refine value_of_totals fun n => ?_
      exact (pncounters_slots sign).slot_of_caughtUp (fun op h => if_neg h)
        (fun _ _ _ _ h hc => slot_of_carried h hc) (hbound sign) (hr sign) n
    have hplus := hhalf .plus
    have hminus := hhalf .minus
    simp only [PNCounter.half] at hplus hminus
    rw [PNCounter.value_toInt, hplus, hminus, Int.natCast_emod, Int.natCast_emod,
      Int.emod_sub_bmod, Int.sub_emod_bmod, Int.bmod_eq_of_le] <;> omega

/-- Counters neither lose nor double-count in any run without an overflowing slot. -/
theorem counters_exact :
    (∀ steps : List (Step NodeID UInt64 Emission),
      (∀ n, total UInt64.toNat n steps < 2 ^ 64) → GCountersExact steps) ∧
    ∀ steps : List (Step NodeID PNOp Emission),
      (∀ sign n, total (PNOp.amount sign) n steps < 2 ^ 64) → PNCountersExact steps :=
  ⟨gcountersExact, pncountersExact⟩

section Example

def deliveredIncrement : List (Step NodeID UInt64 Emission) :=
  [.update "node-2" 3, .update "node-1" 5, .emit "node-1" .delta, .deliver "node-2" 0]

def deliveredDifference : List (Step NodeID PNOp Emission) :=
  [.update "node-1" (.increment 5), .update "node-1" (.decrement 3), .emit "node-1" .delta,
    .deliver "node-2" 0]

theorem counters_exact_delivered :
    ((gcounters.run deliveredIncrement).state "node-2").value.toNat =
      grandTotal UInt64.toNat deliveredIncrement % 2 ^ 64 ∧
    ((pncounters.run deliveredDifference).state "node-2").value.toInt =
      grandTotal (PNOp.amount .plus) deliveredDifference -
        grandTotal (PNOp.amount .minus) deliveredDifference := by
  constructor
  · have hbound (n : NodeID) : total UInt64.toNat n deliveredIncrement < 2 ^ 64 := by
      simp only [deliveredIncrement, total, amounts, amountAt, filterMap_cons, filterMap_nil]
      split_ifs <;> decide
    refine (counters_exact.1 deliveredIncrement hbound).value "node-2" ?_
    rintro n hn ⟨op, -, hop⟩
    simp only [deliveredIncrement, mem_cons, Step.update.injEq, reduceCtorEq,
      not_mem_nil, or_false] at hop
    rcases hop with ⟨rfl, -⟩ | ⟨rfl, -⟩
    · exact absurd rfl hn
    · exact ⟨[.update "node-2" 3, .update "node-1" 5], .delta, [], [], _, rfl, rfl, trivial,
        by simp⟩
  · have hbound (sign : Sign) (n : NodeID) :
        total (PNOp.amount sign) n deliveredDifference < 2 ^ 64 := by
      simp only [deliveredDifference, total, amounts, amountAt, filterMap_cons, filterMap_nil]
      cases sign <;> split_ifs <;> decide
    refine (counters_exact.2 deliveredDifference hbound).value "node-2" ?_ (by decide) (by decide)
    rintro sign n hn ⟨op, -, hop⟩
    have hnode : n = "node-1" := by
      simp only [deliveredDifference, mem_cons, Step.update.injEq, reduceCtorEq,
        not_mem_nil, or_false] at hop
      tauto
    subst hnode
    refine ⟨[.update "node-1" (.increment 5), .update "node-1" (.decrement 3)], .delta, [], [], _,
      rfl, rfl, ?_, by simp⟩
    cases sign <;> decide

/-- The second delta carries only the decrements; the first one is lost. -/
def lostIncrements : List (Step NodeID PNOp Emission) :=
  [.update "node-1" (.increment 5), .emit "node-1" .delta, .update "node-1" (.decrement 3),
    .emit "node-1" .delta, .deliver "node-2" 1]

/-- Having merged the last delta of every node is not enough for the difference. -/
theorem pncounter_misses_lost_increments :
    (∀ sign n, total (PNOp.amount sign) n lostIncrements < 2 ^ 64) ∧
    CaughtUp pncounters (fun _ => True) (fun _ _ => True) lostIncrements "node-2" ∧
    ((pncounters.run lostIncrements).state "node-2").value.toInt = -3 ∧
    (grandTotal (PNOp.amount .plus) lostIncrements -
      grandTotal (PNOp.amount .minus) lostIncrements : ℤ) = 2 := by
  refine ⟨fun sign n => ?_, ?_, by decide, by decide⟩
  · simp only [lostIncrements, total, amounts, amountAt, filterMap_cons, filterMap_nil]
    cases sign <;> split_ifs <;> decide
  · rintro n hn ⟨op, -, hop⟩
    have hnode : n = "node-1" := by
      simp only [lostIncrements, mem_cons, Step.update.injEq, reduceCtorEq,
        not_mem_nil, or_false, false_or] at hop
      tauto
    subst hnode
    exact ⟨[.update "node-1" (.increment 5), .emit "node-1" .delta,
      .update "node-1" (.decrement 3)], .delta, [], [], _, rfl, rfl, trivial, by simp⟩

end Example
end GoAkt.Crdt
