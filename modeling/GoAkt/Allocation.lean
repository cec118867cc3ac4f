import Mathlib.Tactic

/-!
# Sharing out the actors and grains of a departed node

The relocator recreates what a departed node ran: singletons, the remainder of the division and the
first chunk on the leader, each further chunk on one of the peers.
-/
namespace GoAkt.Actor
open Nat List
variable {α γ κ : Type*}

/-- `Chunkify`. It gives nothing if the loop has not ended after `rounds` rounds. -/
def chunkify : ℕ → List α → ℕ → Option (List (List α))
  | 0, _, _ => none
  | rounds + 1, slice, chunkSize =>
    if slice.length = 0 then some []
    else
      let chunkSize := if slice.length < chunkSize then slice.length else chunkSize
      (chunkify rounds (slice.drop chunkSize) chunkSize).map (slice.take chunkSize :: ·)

/-- A slice of `k` chunks is cut into these chunks. -/
lemma chunkify_eq_some {size : ℕ} (hsize : 0 < size) (k : ℕ) {rounds : ℕ} (hrounds : k < rounds)
    {slice : List α} (hlength : slice.length = k * size) :
    ∃ chunks, chunkify rounds slice size = some chunks ∧ chunks.flatten = slice ∧
      chunks.length = k ∧ ∀ c ∈ chunks, c.length = size := by
  induction k generalizing rounds slice with
  | zero =>
    obtain ⟨rounds, rfl⟩ := exists_eq_add_one.mpr hrounds
    rw [zero_mul, length_eq_zero_iff] at hlength
    exact ⟨[], by simp [chunkify, hlength], by simp [hlength], rfl, by simp⟩
  | succ k ih =>
    obtain ⟨rounds, rfl⟩ := exists_eq_add_one.mpr (zero_lt_of_lt hrounds)
    rw [succ_mul] at hlength
    obtain ⟨chunks, hchunks, hflat, hcount, hsizes⟩ :=
      ih (lt_of_succ_lt_succ hrounds) (by simp [hlength] : (slice.drop size).length = k * size)
    refine ⟨slice.take size :: chunks, ?_, by simp [hflat], by simp [hcount], ?_⟩
    · simp only [chunkify]
      rw [if_neg (by omega), if_neg (by omega), hchunks, Option.map_some]
    · simpa [hlength] using hsizes

/-- The share of the leader and the chunks. The leader takes the first chunk. A round of the loop
takes an item, so a loop that ends does so after a round for each of them. -/
def spread (totalPeers : ℕ) (toRebalances : List α) : Option (List α × List (List α)) :=
  let quotient := toRebalances.length / totalPeers
  let remainder := toRebalances.length % totalPeers
  (chunkify (toRebalances.length + 1) (toRebalances.drop remainder) quotient).map fun chunks =>
    (toRebalances.take remainder ++ chunks.headD [], chunks)

def allocateGrains (totalPeers : ℕ) (grains : List γ) : Option (List γ × List (List γ)) :=
  spread totalPeers grains

def allocateActors (singleton : α → Bool) (totalPeers : ℕ) (actors : List α) :
    Option (List α × List (List α)) :=
  (spread totalPeers (actors.filter fun a => !singleton a)).map fun (leaderShares, chunks) =>
    (actors.filter singleton ++ leaderShares, chunks)

/-- Each item has one place: on the leader, or on the peer that a share after the first one is sent
to. -/
structure Allotted (items : List α) (peers : List κ) (leaderShares : List α)
    (peersShares : List (List α)) : Prop where
  perm : leaderShares ++ peersShares.tail.flatten ~ items
  count : peersShares.length ≤ peers.length + 1
  inRange : ∀ i, 1 ≤ i → i < peersShares.length → i - 1 < peers.length
  equal : ∀ c ∈ peersShares.tail, ∀ d ∈ peersShares.tail, c.length = d.length

lemma spread_allotted (items : List α) (peers : List κ) : ∃ leaderShares peersShares,
    spread (peers.length + 1) items = some (leaderShares, peersShares) ∧
      Allotted items peers leaderShares peersShares := by
  set n := items.length
  set p := peers.length + 1
  have hdivide := mod_add_div n p
  -- fewer items than nodes are all part of the remainder, and the loop has nothing to do
  have hchunks : ∃ chunks, chunkify (n + 1) (items.drop (n % p)) (n / p) = some chunks ∧
      chunks.flatten = items.drop (n % p) ∧ chunks.length ≤ p ∧ ∀ c ∈ chunks, c.length = n / p := by
    rcases Nat.eq_zero_or_pos (n / p) with hzero | hpos
    · have hall : items.drop (n % p) = [] := by
        rw [hzero, mul_zero, add_zero] at hdivide
        rw [hdivide, drop_length]
      exact ⟨[], by simp [chunkify, hall], by simp [hall], by simp, by simp⟩
    · have hle : p ≤ n := (Nat.div_pos_iff.mp hpos).2
      obtain ⟨chunks, hsome, hflat, hcount, hsizes⟩ := chunkify_eq_some hpos p
        (lt_succ_of_le hle) (by rw [length_drop]; omega : (items.drop (n % p)).length = _)
      exact ⟨chunks, hsome, hflat, hcount.le, hsizes⟩
  obtain ⟨chunks, hsome, hflat, hcount, hsizes⟩ := hchunks
  refine ⟨_, chunks, by rw [spread, hsome]; rfl, ?_, hcount, fun i hi hlt => by omega, ?_⟩
  · have hhead : chunks.headD [] ++ chunks.tail.flatten = chunks.flatten := by
      cases chunks <;> rfl
    rw [append_assoc, hhead, hflat, take_append_drop]
  · intro c hc d hd
    rw [hsizes c (mem_of_mem_tail hc), hsizes d (mem_of_mem_tail hd)]

/-- For any actors, grains and peers the loops end, and each actor and each grain is assigned to one
node. Singletons stay on the leader. -/
theorem allocation_partitions (singleton : α → Bool) (actors : List α) (grains : List γ)
    (peers : List κ) :
    (∃ leaderShares peersShares, allocateActors singleton (peers.length + 1) actors =
        some (leaderShares, peersShares) ∧ Allotted actors peers leaderShares peersShares ∧
      ∀ a ∈ peersShares.tail.flatten, singleton a = false) ∧
    ∃ leaderShares peersShares, allocateGrains (peers.length + 1) grains =
      some (leaderShares, peersShares) ∧ Allotted grains peers leaderShares peersShares := by
  refine ⟨?_, spread_allotted grains peers⟩
  obtain ⟨leaderShares, peersShares, hspread, h⟩ :=
    spread_allotted (actors.filter fun a => !singleton a) peers
  refine ⟨actors.filter singleton ++ leaderShares, peersShares, ?_, { h with perm := ?_ },
    fun a ha => ?_⟩
  · rw [allocateActors, hspread, Option.map_some]
  · rw [append_assoc]
    exact (h.perm.append_left _).trans (filter_append_perm singleton actors)
  · have hrest := h.perm.subset (mem_append_right _ ha)
    simpa using (mem_filter.mp hrest).2

end GoAkt.Actor
