import GoAkt.ReplicaRuns

/-!
# Grow-only slots

In a replicated object with grow-only slots every node owns one slot. Only the
node's own operations raise it, a message carries the slot as its sender has it
or not at all, and merging takes the larger value. Whatever is lost, repeated or
reordered, a slot held anywhere is then the total of an initial segment of its
owner's operations, slots never decrease, and a replica that has merged one
message sent after the last operation of a node has that node's full total.
-/
namespace GoAkt.GrowOnlySlots
open GoAkt.ReplicaRuns List
variable {ν ω ε σ : Type*} [DecidableEq ν]

/-- What one step contributes to the slot of node `n`, if it is an operation of `n`. -/
def amountAt (amount : ω → ℕ) (n : ν) : Step ν ω ε → Option ℕ
  | .update m op => if m = n then some (amount op) else none
  | .emit _ _ => none
  | .deliver _ _ => none

/-- The contributions of node `n` in the order of its operations. -/
def amounts (amount : ω → ℕ) (n : ν) (steps : List (Step ν ω ε)) : List ℕ :=
  steps.filterMap (amountAt amount n)

def total (amount : ω → ℕ) (n : ν) (steps : List (Step ν ω ε)) : ℕ := (amounts amount n steps).sum

def contribution (amount : ω → ℕ) : Step ν ω ε → ℕ
  | .update _ op => amount op
  | .emit _ _ => 0
  | .deliver _ _ => 0

/-- The contributions of all nodes together. -/
def grandTotal (amount : ω → ℕ) (steps : List (Step ν ω ε)) : ℕ :=
  (steps.map (contribution amount)).sum

section
variable (amount : ω → ℕ)
include amount

@[simp] lemma amounts_append (n : ν) (steps more : List (Step ν ω ε)) :
    amounts amount n (steps ++ more) = amounts amount n steps ++ amounts amount n more := by
  simp [amounts]

@[simp] lemma total_append (n : ν) (steps more : List (Step ν ω ε)) :
    total amount n (steps ++ more) = total amount n steps + total amount n more := by
  simp [total]

@[simp] lemma amounts_update (n m : ν) (op : ω) :
    amounts amount n [(.update m op : Step ν ω ε)] = if m = n then [amount op] else [] := by
  by_cases h : m = n <;> simp [amounts, amountAt, h]

@[simp] lemma amounts_emit (n m : ν) (kind : ε) :
    amounts amount n [(.emit m kind : Step ν ω ε)] = [] := rfl

@[simp] lemma amounts_deliver (n m : ν) (i : ℕ) :
    amounts amount n [(.deliver m i : Step ν ω ε)] = [] := rfl

/-- The totals of any nodes that include all that act add up to everything. -/
theorem sum_total_of_mem (steps : List (Step ν ω ε)) (N : Finset ν)
    (hN : ∀ n op, Step.update n op ∈ steps → n ∈ N) :
    ∑ n ∈ N, total amount n steps = grandTotal amount steps := by
  induction steps with
  | nil => simp [total, amounts, grandTotal]
  | cons s steps ih =>
    have hrest := ih fun n op h => hN n op (mem_cons_of_mem s h)
    have hsplit : ∀ n, total amount n (s :: steps) =
        total amount n [s] + total amount n steps := fun n => total_append amount n [s] steps
    have hone : ∑ n ∈ N, total amount n [s] = contribution amount s := by
      cases s with
      | update m op =>
        have hm : m ∈ N := hN m op mem_cons_self
        rw [Finset.sum_eq_single m]
        · simp [total, contribution]
        · intro n _ hn
          simp [total, Ne.symm hn]
        · exact fun h => absurd hm h
      | emit m kind | deliver m i => simp [total, contribution]
    simp only [hsplit, Finset.sum_add_distrib, hone, hrest, grandTotal, map_cons, sum_cons]

/-- It is enough to add up over the nodes with a non-zero total. -/
theorem sum_total (steps : List (Step ν ω ε)) (N : Finset ν)
    (hN : ∀ n, total amount n steps ≠ 0 → n ∈ N) :
    ∑ n ∈ N, total amount n steps = grandTotal amount steps := by
  let actors : Finset ν := (steps.filterMap fun
    | .update n _ => some n
    | _ => none).toFinset
  have hactors : ∀ n op, Step.update n op ∈ steps → n ∈ actors := by
    intro n op h
    simp only [actors, mem_toFinset, mem_filterMap]
    exact ⟨_, h, rfl⟩
  rw [← sum_total_of_mem amount steps (N ∪ actors)
    (fun n op h => Finset.mem_union_right N (hactors n op h))]
  refine Finset.sum_subset Finset.subset_union_left fun n _ hn => ?_
  by_contra h
  exact hn (hN n h)

end

/-- An object with grow-only slots. Below `bound` an operation adds its amount
exactly; nothing is assumed of an operation that would reach it. -/
structure SlotObject (O : Object ν ω ε σ) (bound : ℕ) (amount : ω → ℕ) (slot : σ → ν → ℕ) :
    Prop where
  init : ∀ n, slot O.init n = 0
  update_own : ∀ n op s, slot s n + amount op < bound →
    slot (O.update n op s) n = slot s n + amount op
  update_other : ∀ n op s m, m ≠ n → slot (O.update n op s) m = slot s m
  emit_state : ∀ kind s n, slot (O.emit kind s).2 n = slot s n
  emit_message : ∀ kind s, ∀ t ∈ (O.emit kind s).1, ∀ n, slot t n = 0 ∨ slot t n = slot s n
  merge : ∀ s t n, slot (O.merge s t) n = max (slot s n) (slot t n)

/-- The value of a slot is the total of an initial segment of the contributions. -/
def Reached (amount : ω → ℕ) (n : ν) (steps : List (Step ν ω ε)) (x : ℕ) : Prop :=
  ∃ segment, segment <+: amounts amount n steps ∧ x = segment.sum

section Reached
variable {amount : ω → ℕ} {n : ν} {steps : List (Step ν ω ε)} {x y : ℕ}

lemma reached_zero : Reached amount n steps 0 := ⟨[], nil_prefix, rfl⟩

lemma reached_total : Reached amount n steps (total amount n steps) := ⟨_, prefix_refl _, rfl⟩

lemma Reached.append (h : Reached amount n steps x) (more : List (Step ν ω ε)) :
    Reached amount n (steps ++ more) x := by
  obtain ⟨segment, hseg, rfl⟩ := h
  refine ⟨segment, hseg.trans ?_, rfl⟩
  rw [amounts_append]
  exact prefix_append _ _

lemma Reached.max (hx : Reached amount n steps x) (hy : Reached amount n steps y) :
    Reached amount n steps (max x y) := by
  rcases max_choice x y with h | h
  · rwa [h]
  · rwa [h]

lemma Reached.le_total (h : Reached amount n steps x) : x ≤ total amount n steps := by
  obtain ⟨segment, ⟨rest, hrest⟩, rfl⟩ := h
  rw [total, ← hrest, sum_append]
  exact Nat.le_add_right _ _

end Reached

/-- Replica `r` has merged a message of node `n` that carries its slot and was
sent after the last operation of `n` that counts. -/
def MergedLast (O : Object ν ω ε σ) (counts : ω → Prop) (carries : σ → Prop)
    (steps : List (Step ν ω ε)) (r n : ν) : Prop :=
  ∃ before kind between after t,
    steps = before ++ .emit n kind :: between ++ .deliver r (O.run before).pool.length :: after ∧
    (O.emit kind ((O.run before).state n)).1 = some t ∧ carries t ∧
    ∀ op, counts op → Step.update n op ∉ between ∧ Step.update n op ∉ after

/-- Replica `r` has done so for every other node with an operation that counts. -/
def CaughtUp (O : Object ν ω ε σ) (counts : ω → Prop) (carries : ν → σ → Prop)
    (steps : List (Step ν ω ε)) (r : ν) : Prop :=
  ∀ n, n ≠ r → (∃ op, counts op ∧ Step.update n op ∈ steps) →
    MergedLast O counts (carries n) steps r n

namespace SlotObject
variable {O : Object ν ω ε σ} {bound : ℕ} {amount : ω → ℕ} {slot : σ → ν → ℕ}

lemma total_lt_of_append (steps more : List (Step ν ω ε))
    (hbound : ∀ n, total amount n (steps ++ more) < bound) (n : ν) :
    total amount n steps < bound := by
  have := hbound n
  rw [total_append] at this
  omega

/-- A node's own slot is exact, and every slot held anywhere has been reached by its
owner. -/
structure Exact (amount : ω → ℕ) (slot : σ → ν → ℕ) (steps : List (Step ν ω ε))
    (c : Config ν σ) : Prop where
  own : ∀ n, slot (c.state n) n = total amount n steps
  held : ∀ s, c.Holds s → ∀ n, Reached amount n steps (slot s n)

variable {steps : List (Step ν ω ε)} {c : Config ν σ}

/-- A step that writes one replica: its own slot must be exact and all its slots reached. -/
lemma Exact.write (h : Exact amount slot steps c)
    {s : Step ν ω ε} {k : ν} {u : σ} (hself : slot u k = total amount k (steps ++ [s]))
    (hrest : ∀ n, n ≠ k → total amount n [s] = 0)
    (hreached : ∀ n, Reached amount n (steps ++ [s]) (slot u n)) :
    Exact amount slot (steps ++ [s]) ⟨Function.update c.state k u, c.pool⟩ where
  own := by
    refine (Function.forall_update_iff _ fun n t => slot t n = _).mpr ⟨hself, fun n hn => ?_⟩
    rw [h.own n, total_append, hrest n hn, Nat.add_zero]
  held := by
    have hstate : ∀ m n, Reached amount n (steps ++ [s])
        (slot (Function.update c.state k u m) n) :=
      (Function.forall_update_iff _ fun _ t => ∀ n, Reached amount n _ (slot t n)).mpr
        ⟨hreached, fun m _ n => (h.held _ (.inl ⟨m, rfl⟩) n).append _⟩
    rintro t (⟨m, rfl⟩ | ht) n
    · exact hstate m n
    · exact (h.held t (.inr ht) n).append _

/-- A step that adds one message, whose slots must be reached. -/
lemma Exact.send (h : Exact amount slot steps c)
    {message : Option σ} (hmessage : ∀ t ∈ message, ∀ n, Reached amount n steps (slot t n)) :
    Exact amount slot steps ⟨c.state, c.pool ++ [message]⟩ where
  own := h.own
  held := by
    rintro t (hstate | hpool) n
    · exact h.held t (.inl hstate) n
    · rcases mem_append.mp hpool with ht | ht
      · exact h.held t (.inr ht) n
      · exact hmessage t (mem_singleton.mp ht).symm n

section
variable (hO : SlotObject O bound amount slot)
include hO

lemma Exact.step (h : Exact amount slot steps c) {s : Step ν ω ε}
    (hbound : ∀ n, total amount n (steps ++ [s]) < bound) :
    Exact amount slot (steps ++ [s]) (O.step c s) := by
  have hstate : ∀ m n, Reached amount n (steps ++ [s]) (slot (c.state m) n) :=
    fun m n => (h.held _ (.inl ⟨m, rfl⟩) n).append _
  rcases O.step_cases c s with ⟨k, op, rfl, hs⟩ | ⟨k, kind, rfl, hs⟩ |
    ⟨k, i, t, rfl, hi, hs⟩ | ⟨k, i, rfl, -, hs⟩
  · have hsum : slot (c.state k) k + amount op = total amount k (steps ++ [.update k op]) := by
      rw [h.own k, total_append]
      simp [total]
    have hself := hO.update_own k op (c.state k) (hsum ▸ hbound k)
    rw [hs]
    refine h.write (hself.trans hsum) (fun n hn => by simp [total, Ne.symm hn]) fun n => ?_
    by_cases hn : n = k
    · subst n
      rw [hself, hsum]
      exact reached_total
    · rw [hO.update_other k op _ n hn]
      exact hstate k n
  · rw [hs]
    refine (h.write ?_ (fun n _ => by simp [total]) fun n => ?_).send fun t ht n => ?_
    · rw [hO.emit_state, h.own k, total_append]
      simp [total]
    · rw [hO.emit_state]
      exact hstate k n
    · rcases hO.emit_message kind _ t ht n with hslot | hslot
      · rw [hslot]
        exact reached_zero
      · rw [hslot]
        exact hstate k n
  · have ht := h.held t (.inr (mem_of_getElem? hi))
    rw [hs]
    refine h.write ?_ (fun n _ => by simp [total]) fun n => ?_
    · rw [hO.merge, h.own k, max_eq_left (ht k).le_total, total_append]
      simp [total]
    · rw [hO.merge]
      exact (hstate k n).max ((ht n).append _)
  · rw [hs]
    refine ⟨fun n => ?_, fun t ht n => (h.held t ht n).append _⟩
    rw [h.own n, total_append]
    simp [total]

/-- Along every run the slots are exact. -/
theorem run_slots (steps : List (Step ν ω ε))
    (hbound : ∀ n, total amount n steps < bound) : Exact amount slot steps (O.run steps) := by
  induction steps using List.reverseRecOn with
  | nil =>
    refine ⟨fun n => by simp [Object.initial, hO.init, total, amounts], ?_⟩
    rintro s (⟨m, rfl⟩ | hs) n
    · simpa [Object.initial, hO.init] using reached_zero
    · simp [Object.initial] at hs
  | append_singleton steps s ih =>
    rw [Object.run_concat]
    exact (ih (total_lt_of_append steps [s] hbound)).step hO hbound

/-- Slots never decrease. -/
theorem slot_mono (steps more : List (Step ν ω ε))
    (hbound : ∀ n, total amount n (steps ++ more) < bound) (r n : ν) :
    slot ((O.run steps).state r) n ≤ slot ((O.run (steps ++ more)).state r) n := by
  induction more using List.reverseRecOn with
  | nil => simp
  | append_singleton more s ih =>
    rw [← append_assoc] at hbound ⊢
    have hbound' := total_lt_of_append (steps ++ more) [s] hbound
    refine (ih hbound').trans ?_
    have hown := (hO.run_slots _ hbound').own
    have hwrite : ∀ (k : ν) (u : σ), slot ((O.run (steps ++ more)).state k) n ≤ slot u n →
        slot ((O.run (steps ++ more)).state r) n ≤
          slot (Function.update (O.run (steps ++ more)).state k u r) n :=
      fun k u hu => (Function.forall_update_iff _ fun m t =>
        slot ((O.run (steps ++ more)).state m) n ≤ slot t n).mpr ⟨hu, fun _ _ => le_rfl⟩ r
    rw [Object.run_concat]
    rcases O.step_cases (O.run (steps ++ more)) s with ⟨k, op, rfl, hs⟩ | ⟨k, kind, rfl, hs⟩ |
      ⟨k, i, t, rfl, hi, hs⟩ | ⟨k, i, rfl, -, hs⟩
    · rw [hs]
      refine hwrite k _ ?_
      by_cases hn : n = k
      · subst n
        rw [hO.update_own]
        · omega
        · have := hbound k
          rw [total_append] at this
          simpa [hown k, total] using this
      · rw [hO.update_other k op _ n hn]
    · rw [hs]
      exact hwrite k _ (hO.emit_state kind _ n).ge
    · rw [hs]
      refine hwrite k _ ?_
      rw [hO.merge]
      exact le_max_left _ _
    · rw [hs]

end

variable {counts : ω → Prop}

lemma total_eq_zero {n : ν} (hcounts : ∀ op, ¬ counts op → amount op = 0)
    (steps : List (Step ν ω ε)) (hnone : ∀ op, counts op → Step.update n op ∉ steps) :
    total amount n steps = 0 := by
  induction steps with
  | nil => rfl
  | cons s steps ih =>
    have hrest := ih fun op hop h => hnone op hop (mem_cons_of_mem s h)
    have hone : total amount n [s] = 0 := by
      cases s with
      | update m op =>
        by_cases h : m = n
        · subst m
          have hop : ¬ counts op := fun hop => hnone op hop mem_cons_self
          simp [total, hcounts op hop]
        · simp [total, h]
      | emit m kind | deliver m i => simp [total]
    rw [← singleton_append, total_append, hone, hrest]

section
variable (hO : SlotObject O bound amount slot) (hcounts : ∀ op, ¬ counts op → amount op = 0)
include hO hcounts

/-- A replica that has merged a message sent after the last operation of a node
holds the full total of that node. -/
theorem slot_of_mergedLast {carries : σ → Prop} {r n : ν}
    (hcarries : ∀ before kind t, (O.emit kind ((O.run before).state n)).1 = some t →
      carries t → slot t n = slot ((O.run before).state n) n)
    (hbound : ∀ n, total amount n steps < bound) (h : MergedLast O counts carries steps r n) :
    slot ((O.run steps).state r) n = total amount n steps := by
  have hle := ((hO.run_slots steps hbound).held _ (.inl ⟨r, rfl⟩) n).le_total
  obtain ⟨before, kind, between, after, t, rfl, hemit, hcarry, hquiet⟩ := h
  have hlast : total amount n (before ++ .emit n kind :: between ++
      .deliver r (O.run before).pool.length :: after) = total amount n before := by
    have hbetween := total_eq_zero hcounts between fun op hop => (hquiet op hop).1
    have hafter := total_eq_zero hcounts after fun op hop => (hquiet op hop).2
    rw [← singleton_append, ← singleton_append (l := after)]
    simp only [total_append, hbetween, hafter]
    simp [total]
  refine le_antisymm hle ?_
  have hsplit : before ++ .emit n kind :: between ++
      .deliver r (O.run before).pool.length :: after =
      (before ++ [.emit n kind] ++ between ++ [.deliver r (O.run before).pool.length]) ++
        after := by
    simp
  have hmono := hO.slot_mono _ _ (fun m => hsplit ▸ hbound m) r n
  rw [hlast, hsplit]
  refine le_trans ?_ hmono
  have hpool : (O.run (before ++ [.emit n kind] ++ between)).pool[(O.run before).pool.length]? =
      some (some t) := by
    have hstart : (O.run (before ++ [.emit n kind])).pool = (O.run before).pool ++ [some t] := by
      rw [Object.run_concat]
      simp [Object.step, hemit]
    obtain ⟨rest, hrest⟩ := O.pool_append (before ++ [.emit n kind]) between
    rw [← hrest, hstart, append_assoc, List.getElem?_append_right le_rfl]
    simp
  have hbefore : slot t n = total amount n before := by
    rw [hcarries before kind t hemit hcarry]
    refine (hO.run_slots before ?_).own n
    rw [append_assoc] at hbound
    exact total_lt_of_append before _ hbound
  rw [Object.run_concat]
  simp only [Object.step, hpool, Option.join_some, Function.update_self, hO.merge, hbefore]
  exact le_max_right _ _

lemma slot_of_caughtUp {carries : ν → σ → Prop}
    (hcarries : ∀ n before kind t, (O.emit kind ((O.run before).state n)).1 = some t →
      carries n t → slot t n = slot ((O.run before).state n) n)
    (hbound : ∀ n, total amount n steps < bound) {r : ν}
    (h : CaughtUp O counts carries steps r) (n : ν) :
    slot ((O.run steps).state r) n = total amount n steps := by
  by_cases hn : n = r
  · subst n
    exact (hO.run_slots steps hbound).own r
  · by_cases hacts : ∃ op, counts op ∧ Step.update n op ∈ steps
    · exact hO.slot_of_mergedLast hcounts (hcarries n) hbound (h n hn hacts)
    · have hzero : total amount n steps = 0 :=
        total_eq_zero hcounts steps fun op hop hmem => hacts ⟨op, hop, hmem⟩
      have hle := ((hO.run_slots steps hbound).held _ (.inl ⟨r, rfl⟩) n).le_total
      omega

end
end SlotObject
end GoAkt.GrowOnlySlots
