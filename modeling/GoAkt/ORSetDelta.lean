import GoAkt.ORSet

/-!
# Delta replication of the observed-remove set

One replica is updated in batches. After each batch its delta is taken and reset,
and a peer merges every delta that is not empty, in order and once. A delta
carries a plain clock, not the set of dots it accounts for, so merging it drops
every older dot of a node that added or removed something newer in the batch.

The journal records each addition with its batch and the batch of the removal
that ended it. It is computed from the operations alone. The elements of both
replicas are read off it, which gives the exact condition for convergence.
-/
namespace GoAkt.Crdt.ORSet
open List hiding count
open GoAkt.FiniteMaps GoAkt.VersionVectors
variable {α : Type*} [DecidableEq α]

inductive Mutation (α : Type*) where
  | add (nodeID : NodeID) (element : α)
  | remove (element : α)
  deriving DecidableEq, Repr

def mutate (s : ORSet α) : Mutation α → ORSet α
  | .add n e => s.add n e
  | .remove e => s.remove e

/-- What the replicator does with one update: apply it, take the delta, reset. -/
def flush (s : ORSet α) (batch : List (Mutation α)) : Option (ORSet α) × ORSet α :=
  let updated := batch.foldl mutate s
  (updated.delta, updated.resetDelta)

/-- One batch at the source, delivered to the peer. -/
def replicateStep (sp : ORSet α × ORSet α) (batch : List (Mutation α)) : ORSet α × ORSet α :=
  let out := flush sp.1 batch
  (out.2, out.1.elim sp.2 sp.2.merge)

/-- The source and its peer after all batches, both starting empty. -/
def replicate (batches : List (List (Mutation α))) : ORSet α × ORSet α :=
  batches.foldl replicateStep (newORSet, newORSet)

/-! ## The journal of additions -/

/-- An addition: the `counter`-th one of its node, made in `batch`, and the batch
of the first later removal of its element. -/
structure Addition (α : Type*) where
  element : α
  nodeID : NodeID
  counter : ℕ
  batch : ℕ
  removed : Option ℕ
  deriving DecidableEq, Repr

namespace Addition

def dot (a : Addition α) : Dot := ⟨a.nodeID, a.counter⟩

/-- A removal of `e` in batch `k` ends the additions of `e` that are still open. -/
def endIn (k : ℕ) (e : α) (a : Addition α) : Addition α :=
  if a.element = e ∧ a.removed = none then { a with removed := some k } else a

end Addition

open Addition

def additionsBy (journal : List (Addition α)) (n : NodeID) : ℕ :=
  (journal.filter fun a => a.nodeID = n).length

def record (k : ℕ) (journal : List (Addition α)) : Mutation α → List (Addition α)
  | .add n e => journal ++ [⟨e, n, additionsBy journal n + 1, k, none⟩]
  | .remove e => journal.map (Addition.endIn k e)

def recordBatch (journal : List (Addition α)) (batch : List (Mutation α) × ℕ) :
    List (Addition α) :=
  batch.1.foldl (record batch.2) journal

def journal (batches : List (List (Mutation α))) : List (Addition α) :=
  batches.zipIdx.foldl recordBatch []

/-- A later batch contains, or removes, an equal or newer addition of the node. -/
def Overtaken (journal : List (Addition α)) (a : Addition α) : Prop :=
  ∃ b ∈ journal, b.nodeID = a.nodeID ∧ a.counter ≤ b.counter ∧
    (a.batch < b.batch ∨ ∃ k ∈ b.removed, a.batch < k)

instance (journal : List (Addition α)) (a : Addition α) : Decidable (Overtaken journal a) :=
  inferInstanceAs (Decidable (∃ b ∈ journal, _))

/-- When the deltas carry everything: an element with an open addition has an
addition that is not overtaken, and an addition undone in its own batch is
overtaken unless its element has an open addition. -/
structure Propagated (journal : List (Addition α)) : Prop where
  open_kept : ∀ a ∈ journal, a.removed = none →
    ∃ b ∈ journal, b.element = a.element ∧ ¬ Overtaken journal b
  undone_overtaken : ∀ a ∈ journal, a.removed = some a.batch →
    (∀ b ∈ journal, b.element = a.element → b.removed ≠ none) → Overtaken journal a

/-! ## The journal is well formed -/

section Journal
variable {k : ℕ} {j : List (Addition α)} (e : α) (a : Addition α) (n : NodeID)

@[simp] lemma endIn_element : (a.endIn k e).element = a.element := by
  unfold endIn; split_ifs <;> rfl

@[simp] lemma endIn_nodeID : (a.endIn k e).nodeID = a.nodeID := by
  unfold endIn; split_ifs <;> rfl

@[simp] lemma endIn_counter : (a.endIn k e).counter = a.counter := by
  unfold endIn; split_ifs <;> rfl

@[simp] lemma endIn_batch : (a.endIn k e).batch = a.batch := by
  unfold endIn; split_ifs <;> rfl

@[simp] lemma endIn_dot : (a.endIn k e).dot = a.dot := by
  simp [dot]

lemma endIn_removed : (a.endIn k e).removed =
    if a.element = e ∧ a.removed = none then some k else a.removed := by
  unfold endIn; split_ifs <;> rfl

omit [DecidableEq α] in
lemma additionsBy_append : additionsBy (j ++ [a]) n =
    if a.nodeID = n then additionsBy j n + 1 else additionsBy j n := by
  unfold additionsBy
  split_ifs with h <;> simp [h]

lemma additionsBy_map : additionsBy (j.map (Addition.endIn k e)) n = additionsBy j n := by
  simp [additionsBy, filter_map, Function.comp_def]

/-- What recording keeps true of the journal while batch `k` is running. -/
structure Journaled (k : ℕ) (j : List (Addition α)) : Prop where
  counter_pos : ∀ a ∈ j, 1 ≤ a.counter
  counter_le : ∀ a ∈ j, a.counter ≤ additionsBy j a.nodeID
  last : ∀ n, 0 < additionsBy j n → ∃ a ∈ j, a.nodeID = n ∧ a.counter = additionsBy j n
  inj : ∀ a ∈ j, ∀ b ∈ j, a.dot = b.dot → a = b
  batch_le : ∀ a ∈ j, a.batch ≤ k
  batch_mono : ∀ a ∈ j, ∀ b ∈ j, a.nodeID = b.nodeID → a.counter ≤ b.counter → a.batch ≤ b.batch
  removed_le : ∀ a ∈ j, ∀ r ∈ a.removed, a.batch ≤ r ∧ r ≤ k

omit [DecidableEq α] in
lemma Journaled.next (h : Journaled k j) : Journaled (k + 1) j :=
  { h with
    batch_le := fun a ha => (h.batch_le a ha).trans (Nat.le_succ k)
    removed_le := fun a ha r hr =>
      ⟨(h.removed_le a ha r hr).1, (h.removed_le a ha r hr).2.trans (Nat.le_succ k)⟩ }

omit [DecidableEq α] in
lemma Journaled.add (h : Journaled k j) (n : NodeID) (e : α) :
    Journaled k (j ++ [⟨e, n, additionsBy j n + 1, k, none⟩]) where
  counter_pos := forall_mem_append.mpr ⟨h.counter_pos, by simp⟩
  counter_le := by
    intro a ha
    rw [additionsBy_append]
    rcases mem_append.mp ha with ha | ha
    · have := h.counter_le a ha
      split_ifs with hn
      · exact this.trans (hn ▸ Nat.le_succ _)
      · exact this
    · rw [mem_singleton.mp ha]
      simp
  last := by
    intro m hm
    rw [additionsBy_append] at hm ⊢
    by_cases hn : n = m
    · subst m
      exact ⟨_, mem_append_right _ (mem_singleton.mpr rfl), rfl, by simp⟩
    · simp only [hn, if_false] at hm ⊢
      obtain ⟨a, ha, han, hac⟩ := h.last m hm
      exact ⟨a, mem_append_left _ ha, han, hac⟩
  inj := by
    have hfresh : ∀ a ∈ j, a.dot ≠ ⟨n, additionsBy j n + 1⟩ := by
      intro a ha hdot
      have hle := h.counter_le a ha
      simp only [dot, Dot.mk.injEq] at hdot
      rw [hdot.1, hdot.2] at hle
      omega
    intro a ha b hb hdot
    rcases mem_append.mp ha with ha | ha <;> rcases mem_append.mp hb with hb | hb
    · exact h.inj a ha b hb hdot
    · rw [mem_singleton.mp hb] at hdot
      exact absurd hdot (hfresh a ha)
    · rw [mem_singleton.mp ha] at hdot
      exact absurd hdot.symm (hfresh b hb)
    · rw [mem_singleton.mp ha, mem_singleton.mp hb]
  batch_le := forall_mem_append.mpr ⟨h.batch_le, by simp⟩
  batch_mono := by
    intro a ha b hb hn hc
    rcases mem_append.mp hb with hb | hb
    · rcases mem_append.mp ha with ha | ha
      · exact h.batch_mono a ha b hb hn hc
      · rw [mem_singleton.mp ha] at hn hc
        have hle := h.counter_le b hb
        rw [← hn] at hle
        simp only at hc hle
        omega
    · rw [mem_singleton.mp hb]
      rcases mem_append.mp ha with ha | ha
      · exact h.batch_le a ha
      · rw [mem_singleton.mp ha]
  removed_le := forall_mem_append.mpr ⟨h.removed_le, by simp⟩

lemma Journaled.remove (h : Journaled k j) (e : α) : Journaled k (j.map (Addition.endIn k e)) where
  counter_pos := by simpa using h.counter_pos
  counter_le := by simpa [additionsBy_map] using h.counter_le
  last := by simpa [additionsBy_map] using h.last
  inj := by
    simp only [mem_map, forall_exists_index, and_imp, forall_apply_eq_imp_iff₂, endIn_dot]
    intro a ha b hb hdot
    rw [h.inj a ha b hb hdot]
  batch_le := by simpa using h.batch_le
  batch_mono := by simpa using h.batch_mono
  removed_le := by
    simp only [mem_map, forall_exists_index, and_imp, forall_apply_eq_imp_iff₂,
      endIn_batch, endIn_removed]
    intro a ha r hr
    split_ifs at hr with hopen
    · rw [Option.mem_some_iff] at hr
      exact ⟨hr ▸ h.batch_le a ha, hr ▸ le_rfl⟩
    · exact h.removed_le a ha r hr

end Journal

/-! ## The source and the peer read off the journal -/

section Reading
variable {k : ℕ} {j : List (Addition α)} {s p : ORSet α}

/-- The source while batch `k` runs. -/
structure SourceOf (k : ℕ) (j : List (Addition α)) (s : ORSet α) : Prop where
  clock : ∀ n, s.clock.lookup n =
    if additionsBy j n = 0 then none else some (additionsBy j n)
  dots : ∀ {e d}, d ∈ s.dots e ↔ ∃ a ∈ j, a.element = e ∧ a.removed = none ∧ a.dot = d
  added : ∀ {e d}, d ∈ s.addedDots e ↔ ∃ a ∈ j, a.element = e ∧ a.batch = k ∧ a.dot = d
  removed : ∀ {e d}, d ∈ s.removedDots e ↔ ∃ a ∈ j, a.element = e ∧ a.removed = some k ∧ a.dot = d

lemma SourceOf.count_clock (h : SourceOf k j s) (n : NodeID) :
    count s.clock n = additionsBy j n := by
  unfold count
  rw [h.clock]
  split_ifs with hz
  · simp [hz]
  · rfl

omit [DecidableEq α] in
lemma exists_mem_append_singleton (a : Addition α) (P : Addition α → Prop) :
    (∃ b ∈ j ++ [a], P b) ↔ (∃ b ∈ j, P b) ∨ P a := by
  simp only [mem_append, mem_singleton, or_and_right, exists_or, exists_eq_left]

lemma sourceOf_add (h : SourceOf k j s) (n : NodeID) (e : α) :
    SourceOf k (j ++ [⟨e, n, additionsBy j n + 1, k, none⟩]) (s.add n e) := by
  refine ⟨fun m => ?_, fun {e' d} => ?_, fun {e' d} => ?_, fun {e' d} => ?_⟩
  · rw [additionsBy_append, lookup_clock_add, h.count_clock, h.clock]
    by_cases hm : m = n
    · subst m
      simp
    · simp [hm, Ne.symm hm]
  · rw [dots_add, h.count_clock, exists_mem_append_singleton]
    by_cases he : e' = e
    · subst e'
      rw [if_pos rfl, mem_append, h.dots, mem_singleton]
      simp [dot, eq_comm]
    · simp [he, Ne.symm he, h.dots]
  · rw [addedDots_add, h.count_clock, exists_mem_append_singleton]
    by_cases he : e' = e
    · subst e'
      rw [if_pos rfl, mem_append, h.added, mem_singleton]
      simp [dot, eq_comm]
    · simp [he, Ne.symm he, h.added]
  · rw [removedDots_add, h.removed, exists_mem_append_singleton]
    simp

lemma sourceOf_remove (h : SourceOf k j s) (e : α) :
    SourceOf k (j.map (Addition.endIn k e)) (s.remove e) := by
  refine ⟨fun m => ?_, fun {e' d} => ?_, fun {e' d} => ?_, fun {e' d} => ?_⟩
  · rw [additionsBy_map, clock_remove, h.clock]
  · rw [dots_remove]
    simp only [mem_map, exists_exists_and_eq_and, endIn_element, endIn_removed, endIn_dot]
    by_cases he : e' = e
    · subst e'
      simp only [if_true, not_mem_nil, false_iff]
      rintro ⟨a, -, hae, hopen, -⟩
      split_ifs at hopen with hc
      exact hc ⟨hae, hopen⟩
    · rw [if_neg he, h.dots]
      refine exists_congr fun a => and_congr_right fun _ => and_congr_right fun hae => ?_
      rw [if_neg (fun hc => he (hae.symm.trans hc.1))]
  · rw [addedDots_remove, h.added]
    simp only [mem_map, exists_exists_and_eq_and, endIn_element, endIn_batch, endIn_dot]
  · rw [removedDots_remove]
    simp only [mem_map, exists_exists_and_eq_and, endIn_element, endIn_removed, endIn_dot]
    by_cases he : e' = e
    · subst e'
      rw [if_pos rfl, mem_append, h.removed, h.dots, ← exists_or]
      refine exists_congr fun a => ?_
      rw [← and_or_left]
      refine and_congr_right fun _ => ?_
      rw [← and_or_left]
      refine and_congr_right fun hae => ?_
      by_cases hopen : a.removed = none
      · simp [hae, hopen]
      · simp [hopen]
    · rw [if_neg he, h.removed]
      refine exists_congr fun a => and_congr_right fun _ => and_congr_right fun hae => ?_
      rw [if_neg (fun hc => he (hae.symm.trans hc.1))]

lemma sourceOf_reset (hj : Journaled k j) (h : SourceOf k j s) :
    SourceOf (k + 1) j s.resetDelta := by
  refine ⟨h.clock, h.dots, fun {e d} => ?_, fun {e d} => ?_⟩
  · rw [addedDots_resetDelta]
    simp only [not_mem_nil, false_iff]
    rintro ⟨a, ha, -, hb, -⟩
    have := hj.batch_le a ha
    omega
  · rw [removedDots_resetDelta]
    simp only [not_mem_nil, false_iff]
    rintro ⟨a, ha, -, hr, -⟩
    have := (hj.removed_le a ha (k + 1) hr).2
    omega

/-- Overtaken by the batches before `k`. -/
def OvertakenBefore (k : ℕ) (j : List (Addition α)) (a : Addition α) : Prop :=
  ∃ b ∈ j, b.nodeID = a.nodeID ∧ a.counter ≤ b.counter ∧
    ((a.batch < b.batch ∧ b.batch < k) ∨ ∃ r ∈ b.removed, a.batch < r ∧ r < k)

/-- The peer while batch `k` runs: it has merged the deltas of all earlier ones. -/
structure PeerOf (k : ℕ) (j : List (Addition α)) (p : ORSet α) : Prop where
  clock : ∀ {n c}, c ≤ count p.clock n ↔ c = 0 ∨ ∃ a ∈ j, a.nodeID = n ∧ a.batch < k ∧ c ≤ a.counter
  dots : ∀ {e d}, d ∈ p.dots e ↔
    ∃ a ∈ j, a.element = e ∧ a.dot = d ∧ a.batch < k ∧ ¬ OvertakenBefore k j a

omit [DecidableEq α] in
lemma overtakenBefore_append (n : NodeID) (e : α) (c : ℕ) (a : Addition α) :
    OvertakenBefore k (j ++ [⟨e, n, c, k, none⟩]) a ↔ OvertakenBefore k j a := by
  unfold OvertakenBefore
  rw [exists_mem_append_singleton]
  simp

lemma overtakenBefore_map (e : α) (a : Addition α) :
    OvertakenBefore k (j.map (Addition.endIn k e)) (a.endIn k e) ↔ OvertakenBefore k j a := by
  unfold OvertakenBefore
  simp only [mem_map, exists_exists_and_eq_and, endIn_nodeID, endIn_counter, endIn_batch,
    endIn_removed]
  refine exists_congr fun b => and_congr_right fun _ => and_congr_right fun _ =>
    and_congr_right fun _ => or_congr_right ?_
  split_ifs with hopen
  · simp [hopen.2]
  · rfl

lemma peerOf_add (h : PeerOf k j p) (n : NodeID) (e : α) (c : ℕ) :
    PeerOf k (j ++ [⟨e, n, c, k, none⟩]) p := by
  refine ⟨fun {m c'} => ?_, fun {e' d} => ?_⟩
  · rw [h.clock, exists_mem_append_singleton]
    simp
  · rw [h.dots, exists_mem_append_singleton]
    simp [overtakenBefore_append]

lemma peerOf_remove (h : PeerOf k j p) (e : α) : PeerOf k (j.map (Addition.endIn k e)) p := by
  refine ⟨fun {m c'} => ?_, fun {e' d} => ?_⟩
  · rw [h.clock]
    simp
  · rw [h.dots]
    simp [overtakenBefore_map]

/-- The whole invariant, kept by every operation of batch `k`. -/
structure InBatch (k : ℕ) (j : List (Addition α)) (s p : ORSet α) : Prop where
  journaled : Journaled k j
  source : SourceOf k j s
  peer : PeerOf k j p

lemma inBatch_mutate (h : InBatch k j s p) (m : Mutation α) :
    InBatch k (record k j m) (s.mutate m) p := by
  cases m with
  | add n e => exact ⟨h.journaled.add n e, sourceOf_add h.source n e, peerOf_add h.peer n e _⟩
  | remove e => exact ⟨h.journaled.remove e, sourceOf_remove h.source e, peerOf_remove h.peer e⟩

lemma inBatch_foldl (h : InBatch k j s p) (batch : List (Mutation α)) :
    InBatch k (batch.foldl (record k) j) (batch.foldl mutate s) p := by
  induction batch generalizing j s with
  | nil => exact h
  | cons m batch ih => exact ih (inBatch_mutate h m)

section
variable (hj : Journaled k j)
include hj

/-- The delta clock covers exactly the counters up to an addition that batch `k`
made or removed. -/
lemma le_deltaClock_iff (h : SourceOf k j s) (n : NodeID) (c : ℕ) :
    c ≤ count s.deltaClock n ↔ c = 0 ∨
      ∃ b ∈ j, b.nodeID = n ∧ (b.batch = k ∨ b.removed = some k) ∧ c ≤ b.counter := by
  rw [le_count_deltaClock]
  refine or_congr_right ?_
  constructor
  · rintro (⟨e, d, hd, rfl, c', hc', hle⟩ | ⟨e, d, hd, rfl, hle⟩)
    · obtain ⟨a, ha, -, hbatch, rfl⟩ := h.added.mp hd
      have hcount : c' = additionsBy j a.nodeID := by
        rw [h.clock] at hc'
        split_ifs at hc' with hz
        exact (Option.some.inj hc').symm
      have hpos : 0 < additionsBy j a.nodeID := (hj.counter_pos a ha).trans (hj.counter_le a ha)
      obtain ⟨b, hb, hbn, hbc⟩ := hj.last a.nodeID hpos
      -- The clock entry is the newest addition of the node, not that of the dot; it was
      -- made after `a`, hence in batch `k` as well.
      have hmono := hj.batch_mono a ha b hb hbn.symm (hbc ▸ hj.counter_le a ha)
      have hbatch' : b.batch = k := le_antisymm (hj.batch_le b hb) (hbatch ▸ hmono)
      exact ⟨b, hb, hbn, .inl hbatch', by omega⟩
    · obtain ⟨a, ha, -, hr, rfl⟩ := h.removed.mp hd
      exact ⟨a, ha, rfl, .inr hr, hle⟩
  · rintro ⟨b, hb, rfl, hbatch | hr, hle⟩
    · refine .inl ⟨b.element, b.dot, h.added.mpr ⟨b, hb, rfl, hbatch, rfl⟩, rfl,
        additionsBy j b.nodeID, ?_, hle.trans (hj.counter_le b hb)⟩
      have hpos := (hj.counter_pos b hb).trans (hj.counter_le b hb)
      rw [h.clock, if_neg (by omega)]
    · exact .inr ⟨b.element, b.dot, h.removed.mpr ⟨b, hb, rfl, hr, rfl⟩, rfl, hle⟩

omit [DecidableEq α] in
lemma overtakenBefore_succ (a : Addition α) :
    OvertakenBefore (k + 1) j a ↔ OvertakenBefore k j a ∨ (a.batch < k ∧
      ∃ b ∈ j, b.nodeID = a.nodeID ∧ (b.batch = k ∨ b.removed = some k) ∧
        a.counter ≤ b.counter) := by
  constructor
  · rintro ⟨b, hb, hn, hc, ⟨hlt, hk⟩ | ⟨r, hr, hlt, hk⟩⟩
    · by_cases hbk : b.batch < k
      · exact .inl ⟨b, hb, hn, hc, .inl ⟨hlt, hbk⟩⟩
      · exact .inr ⟨by omega, b, hb, hn, .inl (by omega), hc⟩
    · by_cases hrk : r < k
      · exact .inl ⟨b, hb, hn, hc, .inr ⟨r, hr, hlt, hrk⟩⟩
      · have hrk' : r = k := by omega
        subst hrk'
        exact .inr ⟨hlt, b, hb, hn, .inr hr, hc⟩
  · rintro (⟨b, hb, hn, hc, ⟨hlt, hk⟩ | ⟨r, hr, hlt, hk⟩⟩ | ⟨hlt, b, hb, hn, hbk | hr, hc⟩)
    · exact ⟨b, hb, hn, hc, .inl ⟨hlt, by omega⟩⟩
    · exact ⟨b, hb, hn, hc, .inr ⟨r, hr, hlt, by omega⟩⟩
    · exact ⟨b, hb, hn, hc, .inl ⟨by omega, by omega⟩⟩
    · exact ⟨b, hb, hn, hc, .inr ⟨k, hr, hlt, by omega⟩⟩

omit [DecidableEq α] in
lemma not_overtakenBefore_of_last {a : Addition α} (ha : a.batch = k) :
    ¬ OvertakenBefore (k + 1) j a := by
  rintro ⟨b, hb, -, -, ⟨hlt, -⟩ | ⟨r, hr, hlt, -⟩⟩
  · have := hj.batch_le b hb
    omega
  · have := (hj.removed_le b hb r hr).2
    omega

lemma peerOf_merge (hs : SourceOf k j s) (hp : PeerOf k j p)
    {d : ORSet α} (hd : s.delta = some d) : PeerOf (k + 1) j (p.merge d) := by
  obtain ⟨hdots, hclock⟩ := delta_eq_some hd
  refine ⟨fun {n c} => ?_, fun {e x} => ?_⟩
  · rw [count_merge, le_max_iff, hp.clock, hclock, le_deltaClock_iff hj hs]
    constructor
    · rintro ((hz | ⟨a, ha, hn, hlt, hc⟩) | (hz | ⟨a, ha, hn, -, hc⟩))
      · exact .inl hz
      · exact .inr ⟨a, ha, hn, by omega, hc⟩
      · exact .inl hz
      · exact .inr ⟨a, ha, hn, Nat.lt_succ_of_le (hj.batch_le a ha), hc⟩
    · rintro (hz | ⟨a, ha, hn, hlt, hc⟩)
      · exact .inl (.inl hz)
      · by_cases hk : a.batch < k
        · exact .inl (.inr ⟨a, ha, hn, hk, hc⟩)
        · exact .inr (.inr ⟨a, ha, hn, .inl (by omega), hc⟩)
  · have hdominated : ∀ a ∈ j, a.counter ≤ count d.clock a.nodeID ↔
        ∃ b ∈ j, b.nodeID = a.nodeID ∧ (b.batch = k ∨ b.removed = some k) ∧
          a.counter ≤ b.counter := by
      intro a ha
      have hpos := hj.counter_pos a ha
      rw [hclock, le_deltaClock_iff hj hs, or_iff_right (by omega)]
    have hfresh : ∀ a ∈ j, a.batch = k → ¬ a.counter ≤ count p.clock a.nodeID := by
      intro a ha hk hle
      have hpos := hj.counter_pos a ha
      rcases hp.clock.mp hle with hz | ⟨b, hb, hn, hlt, hc⟩
      · omega
      · have := hj.batch_mono a ha b hb hn.symm hc
        omega
    rw [mem_dots_merge, hdots]
    constructor
    -- A dot the peer already has stays unless the delta clock covers it; the delta itself
    -- cannot hold it, since it was added in an earlier batch.
    · rintro (⟨hx, hkeep⟩ | ⟨hx, -⟩)
      · obtain ⟨a, ha, hae, rfl, hlt, hover⟩ := hp.dots.mp hx
        refine ⟨a, ha, hae, rfl, by omega, ?_⟩
        rw [overtakenBefore_succ hj]
        rintro (h | ⟨-, h⟩)
        · exact hover h
        · rcases hkeep with hkeep | hkeep
          · exact hkeep ((hdominated a ha).mpr h)
          · obtain ⟨b, hb, -, hbk, hdot⟩ := hs.added.mp hkeep
            rw [hj.inj b hb a ha hdot] at hbk
            omega
      · obtain ⟨a, ha, hae, hk, rfl⟩ := hs.added.mp hx
        exact ⟨a, ha, hae, rfl, by omega, not_overtakenBefore_of_last hj hk⟩
    · rintro ⟨a, ha, hae, rfl, hlt, hover⟩
      by_cases hk : a.batch < k
      · rw [overtakenBefore_succ hj, not_or] at hover
        refine .inl ⟨hp.dots.mpr ⟨a, ha, hae, rfl, hk, hover.1⟩, .inl ?_⟩
        intro hle
        exact hover.2 ⟨hk, (hdominated a ha).mp hle⟩
      · have hk' : a.batch = k := by omega
        exact .inr ⟨hs.added.mpr ⟨a, ha, hae, hk', rfl⟩, .inl (hfresh a ha hk')⟩

lemma peerOf_skip (hs : SourceOf k j s) (hp : PeerOf k j p)
    (hd : s.delta = none) : PeerOf (k + 1) j p := by
  have hnot : ∀ b ∈ j, ¬ (b.batch = k ∨ b.removed = some k) := by
    rintro b hb (hk | hr)
    · have hmem := hs.added.mpr ⟨b, hb, rfl, hk, rfl⟩
      rw [(dots_of_delta_eq_none hd b.element).1] at hmem
      simp at hmem
    · have hmem := hs.removed.mpr ⟨b, hb, rfl, hr, rfl⟩
      rw [(dots_of_delta_eq_none hd b.element).2] at hmem
      simp at hmem
  have hlt : ∀ a ∈ j, (a.batch < k + 1 ↔ a.batch < k) := by
    intro a ha
    have := hnot a ha
    omega
  have hover : ∀ a, OvertakenBefore (k + 1) j a ↔ OvertakenBefore k j a := by
    intro a
    rw [overtakenBefore_succ hj]
    refine or_iff_left ?_
    rintro ⟨-, b, hb, -, hk, -⟩
    exact hnot b hb hk
  refine ⟨fun {n c} => ?_, fun {e d} => ?_⟩
  · rw [hp.clock]
    refine or_congr_right (exists_congr fun a => and_congr_right fun ha => ?_)
    rw [hlt a ha]
  · rw [hp.dots]
    refine exists_congr fun a => and_congr_right fun ha => ?_
    rw [hlt a ha, hover]

end

lemma inBatch_flush (h : InBatch k j s p) : InBatch (k + 1) j s.resetDelta
    (s.delta.elim p p.merge) := by
  refine ⟨h.journaled.next, sourceOf_reset h.journaled h.source, ?_⟩
  cases hd : s.delta with
  | none => exact peerOf_skip h.journaled h.source h.peer hd
  | some d => exact peerOf_merge h.journaled h.source h.peer hd

end Reading

variable (batches : List (List (Mutation α)))

/-- After all batches the invariant holds, and every batch number is in the past. -/
lemma replicate_inBatch :
    InBatch batches.length (journal batches) (replicate batches).1 (replicate batches).2 ∧
    ∀ a ∈ journal batches, a.batch < batches.length ∧ ∀ r ∈ a.removed, r < batches.length := by
  induction batches using reverseRecOn with
  | nil =>
    refine ⟨⟨?_, ?_, ?_⟩, by simp [journal]⟩
    · constructor <;> simp [journal, additionsBy]
    · constructor <;>
        simp [journal, additionsBy, replicate, newORSet, newORSetDelta, addedDots, removedDots,
          ORSet.dots]
    · constructor <;> simp [journal, replicate]
  | append_singleton batches batch ih =>
    have hjournal : journal (batches ++ [batch]) =
        batch.foldl (record batches.length) (journal batches) := by
      simp [journal, zipIdx_append, recordBatch]
    have hreplicate : replicate (batches ++ [batch]) = replicateStep (replicate batches) batch := by
      simp [replicate, foldl_append]
    have hend := inBatch_foldl ih.1 batch
    rw [hjournal, hreplicate, length_append, length_singleton]
    refine ⟨inBatch_flush hend, fun a ha => ⟨?_, fun r hr => ?_⟩⟩
    · exact Nat.lt_succ_of_le (hend.journaled.batch_le a ha)
    · exact Nat.lt_succ_of_le (hend.journaled.removed_le a ha r hr).2

lemma mem_source_elements (e : α) : e ∈ (replicate batches).1.elements ↔
      ∃ a ∈ journal batches, a.element = e ∧ a.removed = none := by
  have hsource := (replicate_inBatch batches).1.source
  rw [mem_elements]
  constructor
  · intro hne
    obtain ⟨d, hd⟩ := exists_mem_of_ne_nil _ hne
    obtain ⟨a, ha, hae, hopen, -⟩ := hsource.dots.mp hd
    exact ⟨a, ha, hae, hopen⟩
  · rintro ⟨a, ha, hae, hopen⟩
    exact ne_nil_of_mem (hsource.dots.mpr ⟨a, ha, hae, hopen, rfl⟩)

lemma mem_peer_elements (e : α) : e ∈ (replicate batches).2.elements ↔
      ∃ a ∈ journal batches, a.element = e ∧ ¬ Overtaken (journal batches) a := by
  obtain ⟨hbatch, hpast⟩ := replicate_inBatch batches
  have hover : ∀ a, OvertakenBefore batches.length (journal batches) a ↔
      Overtaken (journal batches) a := by
    intro a
    refine exists_congr fun b => and_congr_right fun hb => and_congr_right fun _ =>
      and_congr_right fun _ => or_congr ?_ ?_
    · exact and_iff_left (hpast b hb).1
    · refine exists_congr fun r => and_congr_right fun hr => ?_
      exact and_iff_left ((hpast b hb).2 r hr)
  rw [mem_elements]
  constructor
  · intro hne
    obtain ⟨d, hd⟩ := exists_mem_of_ne_nil _ hne
    obtain ⟨a, ha, hae, -, -, hno⟩ := hbatch.peer.dots.mp hd
    exact ⟨a, ha, hae, fun h => hno ((hover a).mpr h)⟩
  · rintro ⟨a, ha, hae, hno⟩
    refine ne_nil_of_mem (hbatch.peer.dots.mpr ⟨a, ha, hae, rfl, (hpast a ha).1, ?_⟩)
    exact fun h => hno ((hover a).mp h)

/-- The peer ends with the elements of the source exactly when the journal of the
run is propagated. -/
theorem replicate_converges_iff (batches : List (List (Mutation α))) :
    (∀ e, e ∈ (replicate batches).2.elements ↔ e ∈ (replicate batches).1.elements) ↔
      Propagated (journal batches) := by
  have hjournal := (replicate_inBatch batches).1.journaled
  constructor
  · intro hsame
    constructor
    · intro a ha hopen
      have hsource := (mem_source_elements batches a.element).mpr ⟨a, ha, rfl, hopen⟩
      exact (mem_peer_elements batches a.element).mp ((hsame a.element).mpr hsource)
    · intro a ha _ hclosed
      by_contra hover
      have hpeer := (mem_peer_elements batches a.element).mpr ⟨a, ha, rfl, hover⟩
      obtain ⟨b, hb, hbe, hopen⟩ :=
        (mem_source_elements batches a.element).mp ((hsame a.element).mp hpeer)
      exact hclosed b hb hbe hopen
  · intro hprop e
    rw [mem_source_elements, mem_peer_elements]
    constructor
    · rintro ⟨a, ha, rfl, hover⟩
      by_contra hclosed
      have hclosed' : ∀ b ∈ journal batches, b.element = a.element → b.removed ≠ none :=
        fun b hb hbe hopen => hclosed ⟨b, hb, hbe, hopen⟩
      obtain ⟨r, hr⟩ := Option.ne_none_iff_exists'.mp (hclosed' a ha rfl)
      have hle := (hjournal.removed_le a ha r hr).1
      rcases hle.lt_or_eq with hlt | heq
      · exact hover ⟨a, ha, rfl, le_rfl, .inr ⟨r, hr, hlt⟩⟩
      · rw [← heq] at hr
        exact hover (hprop.undone_overtaken a ha hr hclosed')
    · rintro ⟨a, ha, rfl, hopen⟩
      exact hprop.open_kept a ha hopen

/-- Adding a second element in a later batch makes the peer drop the first one. -/
theorem replicate_drops_earlier_addition :
    ¬ ∀ batches : List (List (Mutation String)), ∀ e,
      e ∈ (replicate batches).2.elements ↔ e ∈ (replicate batches).1.elements := by
  intro h
  have hpeer : "a" ∉
      (replicate [[Mutation.add "node-1" "a"], [.add "node-1" "b"]]).2.elements := by decide
  have hsource : "a" ∈
      (replicate [[Mutation.add "node-1" "a"], [.add "node-1" "b"]]).1.elements := by decide
  exact hpeer ((h _ "a").mpr hsource)

end GoAkt.Crdt.ORSet
