import GoAkt.ORSet
import GoAkt.CausalHistories

/-!
# Add-wins over whole runs

Replicas of the observed-remove set add, remove, compact and merge full copies of
each other in any order. Presence of an element is compared with its causal
specification: an addition that no observed removal has seen. Compaction is a
silent operation, so it has no place in the specification at all.

The clock of a replica counts the additions in its causal past exactly. The dots
it stores are live additions, but after compactions not all of them: the
invariant only promises, for each live addition, a stored live addition of the
same node that is not earlier.
-/
namespace GoAkt.Crdt.ORSet
open GoAkt.FiniteMaps GoAkt.VersionVectors GoAkt.ReplicaRuns GoAkt.CausalHistories
variable {α : Type*}

inductive SetOp (α : Type*) where
  | add (element : α)
  | remove (element : α)
  | compact
  deriving DecidableEq, Repr

namespace SetOp

/-- Compaction is maintenance, not an event of the history. -/
def isEvent : SetOp α → Bool
  | compact => false
  | _ => true

/-- The operations that take a new dot. -/
def isAdd : SetOp α → Bool
  | add _ => true
  | _ => false

end SetOp

open SetOp
section Replicas
variable [DecidableEq α]

/-- A local operation on behalf of the replica's own node. -/
def applyOp (nodeID : NodeID) : SetOp α → ORSet α → ORSet α
  | .add e, s => s.add nodeID e
  | .remove e, s => s.remove e
  | .compact, s => s.compact

/-- Replicas are named by their node IDs, which makes those pairwise distinct. -/
def replicas : Object NodeID (SetOp α) Unit (ORSet α) := stateBased newORSet applyOp merge

end Replicas

abbrev History (α : Type*) := List (Event NodeID (SetOp α))

/-- Event `i` is an addition of `e` by node `n`. -/
def AddAt (log : History α) (e : α) (n : NodeID) (i : ℕ) : Prop :=
  ∃ f, log[i]? = some f ∧ f.op = .add e ∧ f.node = n

/-- An addition in `H` that no removal of its element in `H` has in its past. -/
def Live (log : History α) (H : Finset ℕ) (e : α) (n : NodeID) (i : ℕ) : Prop :=
  AddAt log e n i ∧ Survives (fun op => op = .remove e) log H i

variable {log : History α} {n : NodeID} {e : α} {i : ℕ}

lemma AddAt.isTick (h : AddAt log e n i) : IsTick SetOp.isAdd log n i := by
  obtain ⟨f, hf, hop, hn⟩ := h
  exact ⟨f, hf, hn, by simp [hop, isAdd]⟩

lemma addAt_concat (hi : i < log.length) (e : α) (n : NodeID)
    (f : Event NodeID (SetOp α)) : AddAt (log ++ [f]) e n i ↔ AddAt log e n i := by
  simp only [AddAt, List.getElem?_append_left hi]

variable {H : Finset ℕ}

lemma live_concat (hH : Closed log H) (e : α) (n : NodeID)
    (i : ℕ) (f : Event NodeID (SetOp α)) : Live (log ++ [f]) H e n i ↔ Live log H e n i := by
  constructor
  · rintro ⟨hadd, hsurv⟩
    exact ⟨(addAt_concat (hH.lt_length hsurv.1) e n f).mp hadd, (survives_concat hH f).mp hsurv⟩
  · rintro ⟨hadd, hsurv⟩
    exact ⟨(addAt_concat (hH.lt_length hsurv.1) e n f).mpr hadd, (survives_concat hH f).mpr hsurv⟩

/-- A new event is live if it adds `e`, and ends what was live if it removes `e`. -/
lemma live_insert_last {n₀ : NodeID} (hH : Closed log H)
    (op : SetOp α) (e : α) (n : NodeID) (i : ℕ) :
    Live (log ++ [⟨n₀, op, H⟩]) (insert log.length H) e n i ↔
      (i = log.length ∧ op = .add e ∧ n₀ = n) ∨ (op ≠ .remove e ∧ Live log H e n i) := by
  have hlast : AddAt (log ++ [⟨n₀, op, H⟩]) e n log.length ↔ op = .add e ∧ n₀ = n := by simp [AddAt]
  unfold Live
  rw [survives_insert_last hH]
  constructor
  · rintro ⟨hadd, rfl | ⟨hop, hsurv⟩⟩
    · exact .inl ⟨rfl, hlast.mp hadd⟩
    · exact .inr ⟨hop, (addAt_concat (hH.lt_length hsurv.1) e n _).mp hadd, hsurv⟩
  · rintro (⟨rfl, hadd⟩ | ⟨hop, hadd, hsurv⟩)
    · exact ⟨hlast.mpr hadd, .inl rfl⟩
    · exact ⟨(addAt_concat (hH.lt_length hsurv.1) e n _).mpr hadd, .inr ⟨hop, hsurv⟩⟩

/-- A removal that has seen an addition has seen all earlier ones of its node. -/
lemma Live.of_le {i k : ℕ}
    (hlog : WellFormed log) (hi : Live log H e n i) (hk : AddAt log e n k) (hkH : k ∈ H)
    (hik : i ≤ k) : Live log H e n k := by
  refine ⟨hk, hkH, fun j hj g hg hop hpast => hi.2.2 j hj g hg hop ?_⟩
  exact hi.1.isTick.mem_of_le hlog (hlog.past_closed hg) hk.isTick hik hpast

lemma exists_latest (hi : Live log H e n i) :
    ∃ j, Live log H e n j ∧ i ≤ j ∧ ∀ k, Live log H e n k → k ≤ j := by
  classical
  have hne : (H.filter (Live log H e n)).Nonempty := ⟨i, by simpa using ⟨hi.2.1, hi⟩⟩
  obtain ⟨j, hj, hmax⟩ := Finset.exists_max_image _ id hne
  simp only [Finset.mem_filter, id] at hj hmax
  exact ⟨j, hj.2, hmax i ⟨hi.2.1, hi⟩, fun k hk => hmax k ⟨hk.2.1, hk⟩⟩

section Tracking
variable [DecidableEq α]

/-- The state stores dots of live additions of `H`, with the latest ones of each
node among them, and counts all additions of `H`. -/
structure Tracks (log : History α) (H : Finset ℕ) (s : ORSet α) : Prop where
  clock : ∀ n, count s.clock n = ticks SetOp.isAdd log H n
  sound : ∀ {e d}, d ∈ s.dots e → ∃ i, Live log H e d.nodeID i ∧ d.counter = seq SetOp.isAdd log i
  latest : ∀ {e n i}, Live log H e n i →
    ∃ j, Live log H e n j ∧ i ≤ j ∧ ⟨n, seq SetOp.isAdd log j⟩ ∈ s.dots e

lemma tracks_concat {log : History α} {H : Finset ℕ} {s : ORSet α} (hlog : WellFormed log)
    (hH : Closed log H) (h : Tracks log H s) (f : Event NodeID (SetOp α)) :
    Tracks (log ++ [f]) H s where
  clock n := by rw [h.clock, ticks_concat hH]
  sound hd := by
    obtain ⟨i, hi, hc⟩ := h.sound hd
    exact ⟨i, (live_concat hH _ _ i f).mpr hi, by rw [seq_concat hlog (hH.lt_length hi.2.1), hc]⟩
  latest hi := by
    obtain ⟨j, hj, hij, hd⟩ := h.latest ((live_concat hH _ _ _ f).mp hi)
    refine ⟨j, (live_concat hH _ _ j f).mpr hj, hij, ?_⟩
    rwa [seq_concat hlog (hH.lt_length hj.2.1)]

section LastEvent
variable {log : History α} {H : Finset ℕ} {n₀ : NodeID}

lemma tracks_add {s : ORSet α} (hlog : WellFormed log) (hH : Closed log H)
    (h : Tracks log H s) (e₀ : α) :
    Tracks (log ++ [⟨n₀, .add e₀, H⟩]) (insert log.length H) (s.add n₀ e₀) := by
  have hkeep : Tracks (log ++ [⟨n₀, .add e₀, H⟩]) H s := tracks_concat hlog hH h _
  have hold : ∀ {e n i}, Live (log ++ [⟨n₀, .add e₀, H⟩]) H e n i →
      Live (log ++ [⟨n₀, .add e₀, H⟩]) (insert log.length H) e n i := fun hi =>
    (live_insert_last hH _ _ _ _).mpr (.inr ⟨by simp, (live_concat hH _ _ _ _).mp hi⟩)
  have hnewLive : Live (log ++ [⟨n₀, .add e₀, H⟩]) (insert log.length H) e₀ n₀ log.length :=
    (live_insert_last hH _ e₀ n₀ log.length).mpr (.inl ⟨rfl, rfl, rfl⟩)
  have hnewSeq : seq isAdd (log ++ [⟨n₀, .add e₀, H⟩]) log.length = count s.clock n₀ + 1 := by
    rw [seq_eq List.getElem?_concat_length, hkeep.clock]
  have hgrow : ∀ {e d}, d ∈ s.dots e → d ∈ (s.add n₀ e₀).dots e := by
    intro e d hd
    rw [dots_add]
    split_ifs with he
    · subst e
      exact List.mem_append_left _ hd
    · exact hd
  refine ⟨fun n => ?_, fun {e d} hd => ?_, fun {e n i} hi => ?_⟩
  · rw [count_add, ticks_insert_last hH, h.clock, h.clock]
    by_cases hn : n = n₀
    · subst n
      simp [isAdd]
    · simp [hn]
  · have hcases : d ∈ s.dots e ∨ (e = e₀ ∧ d = ⟨n₀, count s.clock n₀ + 1⟩) := by
      rw [dots_add] at hd
      split_ifs at hd with he
      · subst e
        rcases List.mem_append.mp hd with hd | hd
        · exact .inl hd
        · exact .inr ⟨rfl, List.mem_singleton.mp hd⟩
      · exact .inl hd
    rcases hcases with hd | ⟨rfl, rfl⟩
    · obtain ⟨i, hi, hc⟩ := hkeep.sound hd
      exact ⟨i, hold hi, hc⟩
    · exact ⟨log.length, hnewLive, hnewSeq.symm⟩
  · rcases (live_insert_last hH _ e n i).mp hi with ⟨rfl, hadd, rfl⟩ | ⟨-, hi⟩
    · cases hadd
      refine ⟨log.length, hnewLive, le_rfl, ?_⟩
      rw [hnewSeq, dots_add, if_pos rfl]
      simp
    · obtain ⟨j, hj, hij, hd⟩ := hkeep.latest ((live_concat hH e n i _).mpr hi)
      exact ⟨j, hold hj, hij, hgrow hd⟩

lemma tracks_remove {s : ORSet α} (hlog : WellFormed log) (hH : Closed log H)
    (h : Tracks log H s) (e₀ : α) :
    Tracks (log ++ [⟨n₀, .remove e₀, H⟩]) (insert log.length H) (s.remove e₀) := by
  have hkeep : Tracks (log ++ [⟨n₀, .remove e₀, H⟩]) H s := tracks_concat hlog hH h _
  have hlive : ∀ {e n i}, e ≠ e₀ →
      (Live (log ++ [⟨n₀, .remove e₀, H⟩]) (insert log.length H) e n i ↔
        Live (log ++ [⟨n₀, .remove e₀, H⟩]) H e n i) := by
    intro e n i he
    rw [live_insert_last hH, live_concat hH]
    simp [Ne.symm he]
  refine ⟨fun n => ?_, fun {e d} hd => ?_, fun {e n i} hi => ?_⟩
  · rw [clock_remove, ticks_insert_last hH, h.clock]
    simp [isAdd]
  · rw [dots_remove] at hd
    split_ifs at hd with he
    · simp at hd
    · obtain ⟨i, hi, hc⟩ := hkeep.sound hd
      exact ⟨i, (hlive he).mpr hi, hc⟩
  · by_cases he : e = e₀
    · subst e
      simp [live_insert_last hH] at hi
    · obtain ⟨j, hj, hij, hd⟩ := hkeep.latest ((hlive he).mp hi)
      refine ⟨j, (hlive he).mpr hj, hij, ?_⟩
      rwa [dots_remove, if_neg he]

end LastEvent

/-- Compaction drops only dots for which a later live addition of the same node
stays stored. -/
lemma tracks_compact {log : History α} {H : Finset ℕ} {s : ORSet α} (hlog : WellFormed log)
    (h : Tracks log H s) : Tracks log H s.compact where
  clock := h.clock
  sound hd := h.sound ((mem_dots_compact s _ _).mp hd).1
  latest {e n i} hi := by
    obtain ⟨j, hj, hij, hd⟩ := h.latest hi
    have hne : ((s.dots e).toFinset.filter fun d => d.nodeID = n).Nonempty :=
      ⟨⟨n, seq isAdd log j⟩, by simpa using hd⟩
    obtain ⟨m, hm, hmax⟩ := Finset.exists_max_image _ Dot.counter hne
    simp only [Finset.mem_filter, List.mem_toFinset] at hm hmax
    obtain ⟨k, hk, hkc⟩ := h.sound hm.1
    rw [hm.2] at hk
    have hjk : j ≤ k := by
      have hle := hmax ⟨n, seq isAdd log j⟩ ⟨hd, rfl⟩
      rw [hkc] at hle
      exact (seq_le_iff hlog hj.1.isTick hk.1.isTick).mp hle
    refine ⟨k, hk, hij.trans hjk, (mem_dots_compact s e _).mpr ?_⟩
    have hdot : m = ⟨n, seq isAdd log k⟩ := by
      cases m
      simp_all
    rw [← hdot]
    exact ⟨hm.1, fun d' hd' hn => hmax d' ⟨hd', hn.trans hm.2⟩⟩

section Merge
variable {log : History α} {H K : Finset ℕ}

/-- The latest live addition of a node in a union is stored by every side that
has seen it. -/
lemma Tracks.stores_latest (hlog : WellFormed log) (hK : Closed log K) {s : ORSet α}
    (h : Tracks log H s) {e : α} {n : NodeID} {i : ℕ} (hi : Live log (H ∪ K) e n i)
    (hmax : ∀ k, Live log (H ∪ K) e n k → k ≤ i) (hiH : i ∈ H) :
    ⟨n, seq SetOp.isAdd log i⟩ ∈ s.dots e := by
  obtain ⟨k, hk, hik, hd⟩ := h.latest ⟨hi.1, hi.2.of_union_left hiH⟩
  -- The stored dot may belong to a later addition `k`. A removal in `K` that has seen
  -- `k` would have seen `i`, so `k` is live in the union too and equals `i`.
  have hkLive : Live log (H ∪ K) e n k := by
    by_cases hkK : k ∈ K
    · have hiK : i ∈ K := hi.1.isTick.mem_of_le hlog hK hk.1.isTick hik hkK
      have hiLive : Live log K e n i := ⟨hi.1, (Finset.union_comm H K ▸ hi.2).of_union_left hiK⟩
      exact ⟨hk.1, hk.2.union_of_both (hiLive.of_le hlog hk.1 hkK hik).2⟩
    · exact ⟨hk.1, hk.2.union_of_not_mem hK hkK⟩
  have he : k = i := le_antisymm (hmax k hkLive) hik
  exact he ▸ hd

lemma Tracks.dominated_iff (hlog : WellFormed log) (hH : Closed log H) {s : ORSet α}
    (h : Tracks log H s) {e : α} {n : NodeID} {i : ℕ} (hi : AddAt log e n i) :
    seq SetOp.isAdd log i ≤ count s.clock n ↔ i ∈ H := by
  rw [h.clock, mem_iff_seq_le hlog hH hi.isTick]

lemma tracks_merge (hlog : WellFormed log) (hH : Closed log H) (hK : Closed log K)
    {s t : ORSet α} (hs : Tracks log H s) (ht : Tracks log K t) :
    Tracks log (H ∪ K) (s.merge t) where
  clock n := by rw [count_merge, hs.clock, ht.clock, ticks_union hlog hH hK]
  sound {e d} hd := by
    have hone : ∀ {H K : Finset ℕ} {s t : ORSet α}, Closed log K → Tracks log H s →
        Tracks log K t → d ∈ s.dots e → (¬ d.counter ≤ count t.clock d.nodeID ∨ d ∈ t.dots e) →
        ∃ i, Live log (H ∪ K) e d.nodeID i ∧ d.counter = seq isAdd log i := by
      intro H K s t hK hs ht hd hkeep
      obtain ⟨i, hi, hc⟩ := hs.sound hd
      refine ⟨i, ?_, hc⟩
      rcases hkeep with hfresh | hboth
      · rw [hc, ht.dominated_iff hlog hK hi.1] at hfresh
        exact ⟨hi.1, hi.2.union_of_not_mem hK hfresh⟩
      · obtain ⟨j, hj, hjc⟩ := ht.sound hboth
        have he : i = j := seq_inj hlog hi.1.isTick hj.1.isTick (hc.symm.trans hjc)
        subst he
        exact ⟨hi.1, hi.2.union_of_both hj.2⟩
    rcases (mem_dots_merge s t e d).mp hd with ⟨hd, hkeep⟩ | ⟨hd, hkeep⟩
    · exact hone hK hs ht hd hkeep
    · rw [Finset.union_comm]
      exact hone hH ht hs hd hkeep
  latest {e n i} hi := by
    -- Compaction may have dropped the dot of `i` on either side, so we look for the
    -- latest live addition of the node instead.
    obtain ⟨j, hj, hij, hmax⟩ := exists_latest hi
    refine ⟨j, hj, hij, (mem_dots_merge s t e _).mpr ?_⟩
    have hstore : j ∈ H → ⟨n, seq isAdd log j⟩ ∈ s.dots e := hs.stores_latest hlog hK hj hmax
    have hstore' : j ∈ K → ⟨n, seq isAdd log j⟩ ∈ t.dots e := by
      rw [Finset.union_comm] at hj
      simp only [Finset.union_comm H K] at hmax
      exact ht.stores_latest hlog hH hj hmax
    rw [hs.dominated_iff hlog hH hj.1, ht.dominated_iff hlog hK hj.1]
    by_cases hjH : j ∈ H
    · by_cases hjK : j ∈ K
      · exact .inl ⟨hstore hjH, .inr (hstore' hjK)⟩
      · exact .inl ⟨hstore hjH, .inl hjK⟩
    · have hjK : j ∈ K := (Finset.mem_union.mp hj.2.1).resolve_left hjH
      exact .inr ⟨hstore' hjK, .inl hjH⟩

end Merge

lemma simulation : Simulation SetOp.isEvent (fun _ : SetOp α => True) newORSet applyOp merge
    Tracks where
  init _ :=
    { clock := fun n => by simp [ticks]
      sound := fun h => by simp at h
      latest := fun h => by simp [Live, Survives] at h }
  concat hlog hH h f := tracks_concat hlog hH h f
  event {log H s n op} _ hev hlog hH _ h := by
    cases op with
    | add e => exact tracks_add hlog hH h e
    | remove e => exact tracks_remove hlog hH h e
    | compact => simp [isEvent] at hev
  silent {log H s n op} _ hev hlog _ h := by
    cases op with
    | add e | remove e => simp [isEvent] at hev
    | compact => exact tracks_compact hlog h
  merge hlog hH hK hs ht := tracks_merge hlog hH hK hs ht

lemma Tracks.dots_ne_nil_iff {log : History α} {H : Finset ℕ} {s : ORSet α}
    (h : Tracks log H s) (e : α) : s.dots e ≠ [] ↔ ∃ n i, Live log H e n i := by
  constructor
  · intro hne
    obtain ⟨d, hd⟩ := List.exists_mem_of_ne_nil _ hne
    obtain ⟨i, hi, -⟩ := h.sound hd
    exact ⟨d.nodeID, i, hi⟩
  · rintro ⟨n, i, hi⟩
    obtain ⟨j, -, -, hd⟩ := h.latest hi
    exact List.ne_nil_of_mem hd

/-- The add-wins specification over a causal past: some addition of `e` in it is
in the past of no removal of `e` in it. -/
def AddWins (log : History α) (H : Finset ℕ) (e : α) : Prop :=
  ∃ i ∈ H, (∃ f, log[i]? = some f ∧ f.op = .add e) ∧
    ∀ j ∈ H, ∀ g, log[j]? = some g → g.op = .remove e → i ∉ g.past

omit [DecidableEq α] in
lemma addWins_iff_live (log : History α) (H : Finset ℕ) (e : α) :
    AddWins log H e ↔ ∃ n i, Live log H e n i := by
  constructor
  · rintro ⟨i, hi, ⟨f, hf, hop⟩, hrem⟩
    exact ⟨f.node, i, ⟨f, hf, hop, rfl⟩, hi, hrem⟩
  · rintro ⟨n, i, ⟨f, hf, hop, -⟩, hi, hrem⟩
    exact ⟨i, hi, ⟨f, hf, hop⟩, hrem⟩

/-- Every step but a compaction. -/
def keepsStep : Step NodeID (SetOp α) Unit → Bool
  | .update _ .compact => false
  | _ => true

lemma dots_ne_nil_iff_addWins (steps : List (Step NodeID (SetOp α) Unit)) (r : NodeID) (e : α) :
    ((replicas.run steps).state r).dots e ≠ [] ↔
      AddWins (causality SetOp.isEvent steps).log ((causality SetOp.isEvent steps).past r) e := by
  have hrun := simulation.run steps (fun _ _ _ => trivial)
  rw [addWins_iff_live]
  exact (hrun.state r).dots_ne_nil_iff e

/-- After every run, an element is present at a replica exactly when the
specification says so of the replica's causal past, and dropping all compactions
from the run leaves the same elements everywhere. -/
theorem contains_iff_addWins (steps : List (Step NodeID (SetOp α) Unit)) (r : NodeID) (e : α) :
    (((replicas.run steps).state r).contains e = true ↔
      AddWins (causality SetOp.isEvent steps).log ((causality SetOp.isEvent steps).past r) e) ∧
    (e ∈ ((replicas.run steps).state r).elements ↔
      e ∈ ((replicas.run (steps.filter keepsStep)).state r).elements) := by
  have hsame : causality isEvent (steps.filter keepsStep) = causality isEvent steps := by
    refine causality_filter isEvent keepsStep ?_ steps
    intro s hs
    match s with
    | .update n .compact => exact ⟨n, .compact, rfl, rfl⟩
    | .update n (.add e) => simp [keepsStep] at hs
    | .update n (.remove e) => simp [keepsStep] at hs
    | .emit n u => simp [keepsStep] at hs
    | .deliver n i => simp [keepsStep] at hs
  constructor
  · rw [contains_iff, dots_ne_nil_iff_addWins]
  · rw [mem_elements, mem_elements, dots_ne_nil_iff_addWins, dots_ne_nil_iff_addWins, hsame]

end Tracking
end GoAkt.Crdt.ORSet
