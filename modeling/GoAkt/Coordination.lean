import GoAkt.Replicator

/-!
# The peers of a coordinated operation

A coordinated write or read contacts a random selection of the peers: the first positions of a
partially shuffled copy. With the level `Majority` the node of the writer and the peers it selects
have a node in common with the node of the reader and the peers it selects, whatever is drawn.
-/
namespace GoAkt.Replication
open List

lemma swapAt_perm {α : Type*} (l : List α) (i j : ℕ) : (swapAt l i j).Perm l := by
  unfold swapAt
  split
  · next a b ha hb =>
    obtain ⟨hi, rfl⟩ := List.getElem?_eq_some_iff.mp ha
    obtain ⟨hj, rfl⟩ := List.getElem?_eq_some_iff.mp hb
    exact set_set_perm hi hj
  · exact List.Perm.refl l

/-- The two arrays of `selectPeers`: the one of the caller and the one that is shuffled. -/
structure PeerArrays where
  peers : List Peer
  shuffled : List Peer

open PeerArrays
variable (peerCount : ℕ) (draw : ℕ → ℕ) (peers : List Peer) (count : ℕ)

/-- The loop of `selectPeers` after `count` iterations. Only the copy is written to. -/
def PeerArrays.shuffle : PeerArrays := (List.range count).foldl (fun arrays i =>
    { arrays with
      shuffled := swapAt arrays.shuffled i (i + draw i % (arrays.shuffled.length - i)) })
    ⟨peers, peers⟩

lemma PeerArrays.shuffle_succ : shuffle draw peers (count + 1) = { shuffle draw peers count with
        shuffled := swapAt (shuffle draw peers count).shuffled count
          (count + draw count % ((shuffle draw peers count).shuffled.length - count)) } := by
  rw [shuffle, range_succ, foldl_concat]
  rfl

/-- The copy stays a permutation of the array of the caller, which stays as it was. -/
lemma PeerArrays.shuffle_spec : (shuffle draw peers count).peers = peers ∧
      (shuffle draw peers count).shuffled.Perm peers := by
  induction count with
  | zero => exact ⟨rfl, List.Perm.refl peers⟩
  | succ count ih =>
    rw [shuffle_succ]
    exact ⟨ih.1, (swapAt_perm _ _ _).trans ih.2⟩

lemma PeerArrays.shuffled_eq :
    (shuffle draw peers count).shuffled = (List.range count).foldl (fun shuffled i =>
      swapAt shuffled i (i + draw i % (shuffled.length - i))) peers := by
  induction count with
  | zero => rfl
  | succ count ih => rw [shuffle_succ, range_succ, foldl_concat, ← ih]

/-- A selection of at most all peers has the size that is asked for and no peer twice. -/
lemma selectPeers_spec {peers : List Peer} {count : ℕ} (hcount : count ≤ peers.length)
    (hnodup : peers.Nodup) (draw : ℕ → ℕ) :
    (selectPeers peers count draw).length = count ∧ (selectPeers peers count draw).Nodup ∧
      selectPeers peers count draw ⊆ peers := by
  unfold selectPeers
  split_ifs with hall hzero
  · exact ⟨le_antisymm hall hcount, hnodup, List.Subset.refl _⟩
  · exact ⟨hzero.symm, nodup_nil, nil_subset _⟩
  · have hperm := (shuffle_spec draw peers count).2
    rw [shuffled_eq] at hperm
    refine ⟨?_, (hperm.nodup_iff.mpr hnodup).sublist (take_sublist _ _), ?_⟩
    · rw [length_take, hperm.length_eq, min_eq_left hcount]
    · exact fun p hp => hperm.mem_iff.mp (mem_of_mem_take hp)

lemma targetCount_le : targetCount peerCount .majority ≤ peerCount := by
  simp only [targetCount]
  split_ifs <;> omega

/-- Twice the selected peers and the node itself are more than the cluster. -/
lemma lt_targetCount : peerCount + 1 < 2 * (targetCount peerCount .majority + 1) := by
  simp only [targetCount]
  split_ifs <;> omega

/-- Two duplicate-free lists of nodes that together are longer than the cluster share a node. -/
lemma exists_common {nodes ws rs : List Peer} (hws : ws.Nodup) (hrs : rs.Nodup)
    (hwsub : ws ⊆ nodes) (hrsub : rs ⊆ nodes) (hlen : nodes.length < ws.length + rs.length) :
    ∃ p, p ∈ ws ∧ p ∈ rs := by
  by_contra hnone
  have hnodup : (ws ++ rs).Nodup := hws.append hrs fun p hw hr => hnone ⟨p, hw, hr⟩
  have hle : (ws ++ rs).length ≤ nodes.length :=
    (subperm_of_subset hnodup (append_subset.mpr ⟨hwsub, hrsub⟩)).length_le
  rw [length_append] at hle
  omega

/-- What a node selects among the others, and the node itself. -/
lemma coordination_set {nodes peers : List Peer} {node : Peer} (hnodup : nodes.Nodup)
    (hnode : node ∈ nodes) (hpeers : peers.Perm (nodes.erase node)) (draw : ℕ → ℕ) :
    let selected := selectPeers peers (targetCount (nodes.length - 1) .majority) draw
    (selected.length = targetCount (nodes.length - 1) .majority ∧ selected.Nodup ∧
      selected ⊆ peers) ∧ (node :: selected).Nodup ∧ node :: selected ⊆ nodes := by
  intro selected
  have hlen : peers.length = nodes.length - 1 := by
    rw [hpeers.length_eq, length_erase_of_mem hnode]
  have hdistinct : peers.Nodup := hpeers.nodup_iff.mpr (hnodup.erase node)
  obtain ⟨hsize, hsel, hsub⟩ :=
    selectPeers_spec ((targetCount_le (nodes.length - 1)).trans hlen.ge) hdistinct draw
  have hother : ∀ p ∈ selected, p ∈ nodes ∧ p ≠ node := fun p hp =>
    have h := (List.Nodup.mem_erase_iff hnodup).mp (hpeers.mem_iff.mp (hsub hp))
    ⟨h.2, h.1⟩
  refine ⟨⟨hsize, hsel, hsub⟩, ?_, ?_⟩
  · exact nodup_cons.mpr ⟨fun h => (hother node h).2 rfl, hsel⟩
  · exact cons_subset.mpr ⟨hnode, fun p hp => (hother p hp).1⟩

/-- In a cluster of distinct nodes the coordination sets of any writer and any reader overlap. Each
selection has the size of the level, is free of duplicates and leaves its argument as it was. -/
theorem majority_sets_overlap (nodes : List Peer) (hnodup : nodes.Nodup) (writer reader : Peer)
    (hwriter : writer ∈ nodes) (hreader : reader ∈ nodes) (writerPeers readerPeers : List Peer)
    (hwpeers : writerPeers.Perm (nodes.erase writer))
    (hrpeers : readerPeers.Perm (nodes.erase reader)) (draw draw' : ℕ → ℕ) :
    let count := targetCount (nodes.length - 1) .majority
    let written := selectPeers writerPeers count draw
    let read := selectPeers readerPeers count draw'
    (written.length = count ∧ written.Nodup ∧ written ⊆ writerPeers) ∧
    (read.length = count ∧ read.Nodup ∧ read ⊆ readerPeers) ∧
    (shuffle draw writerPeers count).peers = writerPeers ∧
    (shuffle draw' readerPeers count).peers = readerPeers ∧
    ∃ p, p ∈ writer :: written ∧ p ∈ reader :: read := by
  intro count written read
  obtain ⟨hw, hwnodup, hwsub⟩ := coordination_set hnodup hwriter hwpeers draw
  obtain ⟨hr, hrnodup, hrsub⟩ := coordination_set hnodup hreader hrpeers draw'
  refine ⟨hw, hr, (shuffle_spec _ _ _).1, (shuffle_spec _ _ _).1, ?_⟩
  refine exists_common hwnodup hrnodup hwsub hrsub ?_
  have hpos : 0 < nodes.length := length_pos_of_mem hwriter
  have hlt := lt_targetCount (nodes.length - 1)
  rw [length_cons, length_cons, hw.1, hr.1]
  omega

/-- A cluster of five nodes, which see their peers in different orders and draw differently. -/
theorem majority_sets_overlap_five :
    ∃ p, p ∈ Peer.mk "a" 1 :: selectPeers [⟨"d", 1⟩, ⟨"b", 1⟩, ⟨"e", 1⟩, ⟨"c", 1⟩]
        (targetCount 4 .majority) (· - 1) ∧
      p ∈ Peer.mk "b" 1 :: selectPeers [⟨"a", 1⟩, ⟨"e", 1⟩, ⟨"c", 1⟩, ⟨"d", 1⟩]
        (targetCount 4 .majority) (· / 2) :=
  (majority_sets_overlap [⟨"a", 1⟩, ⟨"b", 1⟩, ⟨"c", 1⟩, ⟨"d", 1⟩, ⟨"e", 1⟩] (by decide) ⟨"a", 1⟩
    ⟨"b", 1⟩ (by decide) (by decide) [⟨"d", 1⟩, ⟨"b", 1⟩, ⟨"e", 1⟩, ⟨"c", 1⟩]
    [⟨"a", 1⟩, ⟨"e", 1⟩, ⟨"c", 1⟩, ⟨"d", 1⟩] (by decide) (by decide) (· - 1) (· / 2)).2.2.2.2

end GoAkt.Replication
