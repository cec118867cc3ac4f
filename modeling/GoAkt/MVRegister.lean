import GoAkt.Crdt
import GoAkt.CausalHistories

/-!
# The multi-value register

A write replaces all entries by one entry with a fresh dot, and merging keeps the
entries of either side that the other side has not seen or still holds. Over any
run of writes and merges of full copies, the entries of a replica are the writes
of its causal past that no other write of that past has seen: each of them once.
-/
namespace GoAkt.Crdt
open List GoAkt.FiniteMaps GoAkt.VersionVectors GoAkt.ReplicaRuns GoAkt.CausalHistories
variable {β : Type*}

/-- A value tagged with its causal dot. -/
structure MVEntry (β : Type*) where
  value : β
  dot : Dot
  deriving DecidableEq, Repr

structure MVRegister (β : Type*) where
  entries : List (MVEntry β)
  clock : VersionVector NodeID
  dirty : Bool

def newMVRegister : MVRegister β := ⟨[], ∅, false⟩

def containsMVDot (entries : List (MVEntry β)) (d : Dot) : Bool :=
  entries.any fun e => e.dot.nodeID == d.nodeID && e.dot.counter == d.counter

def appendMVEntryUnique (entries : List (MVEntry β)) (e : MVEntry β) : List (MVEntry β) :=
  if containsMVDot entries e.dot then entries else entries ++ [e]

namespace MVRegister
variable (r : MVRegister β)

def set (nodeID : NodeID) (value : β) : MVRegister β :=
  let counter := count r.clock nodeID + 1
  ⟨[⟨value, ⟨nodeID, counter⟩⟩], r.clock.insert nodeID counter, true⟩

def values : List β := r.entries.map MVEntry.value

/-- One of the two loops of `merge` over the entries of one side. -/
def keepEntries (mine theirs : List (MVEntry β)) (theirClock : VersionVector NodeID)
    (kept : List (MVEntry β)) : List (MVEntry β) :=
  mine.foldl (fun kept e =>
    if !isDominated e.dot theirClock || containsMVDot theirs e.dot then
      appendMVEntryUnique kept e
    else kept) kept

def merge (r o : MVRegister β) : MVRegister β where
  entries := keepEntries o.entries r.entries r.clock (keepEntries r.entries o.entries o.clock [])
  clock := join r.clock o.clock
  dirty := false

def delta : Option (MVRegister β) := if r.dirty then some r else none

def resetDelta : MVRegister β := { r with dirty := false }

instance : ReplicatedData (MVRegister β) where
  merge := merge
  delta := delta
  resetDelta := resetDelta
  compactData _ := none

/-! ## Merging entries that are determined by their dots -/

@[simp] lemma containsMVDot_iff (entries : List (MVEntry β)) (d : Dot) :
    containsMVDot entries d = true ↔ ∃ e ∈ entries, e.dot = d := by
  simp only [containsMVDot, any_eq_true, Bool.and_eq_true, beq_iff_eq]
  refine exists_congr fun e => and_congr_right fun _ => ?_
  cases e.dot
  cases d
  simp

/-- Both sides take an entry only if the other has not seen its dot or holds it. -/
def Kept (theirs : List (MVEntry β)) (theirClock : VersionVector NodeID) (e : MVEntry β) : Prop :=
  ¬ e.dot.counter ≤ count theirClock e.dot.nodeID ∨ ∃ y ∈ theirs, y.dot = e.dot

lemma nodup_keepEntries (mine theirs : List (MVEntry β)) (clock : VersionVector NodeID)
    (kept : List (MVEntry β)) (hkept : (kept.map MVEntry.dot).Nodup) :
    ((keepEntries mine theirs clock kept).map MVEntry.dot).Nodup := by
  induction mine generalizing kept with
  | nil => exact hkept
  | cons e mine ih =>
    apply ih
    dsimp only
    split_ifs
    · unfold appendMVEntryUnique
      split_ifs with hin
      · exact hkept
      · rw [containsMVDot_iff] at hin
        rw [map_append, nodup_append]
        refine ⟨hkept, by simp, ?_⟩
        intro d hd d' hd' hdd
        obtain ⟨y, hy, rfl⟩ := mem_map.mp hd
        exact hin ⟨y, hy, hdd.trans (by simpa using hd')⟩
    · exact hkept

/-- Where a dot determines its entry, dropping entries of a known dot loses
nothing, and the loop keeps exactly the wanted entries. -/
lemma mem_keepEntries {known : MVEntry β → Prop}
    (hknown : ∀ {x y}, known x → known y → x.dot = y.dot → x = y)
    (mine theirs : List (MVEntry β)) (clock : VersionVector NodeID) (kept : List (MVEntry β))
    (hmine : ∀ x ∈ mine, known x) (hkept : ∀ x ∈ kept, known x) (x : MVEntry β) :
    x ∈ keepEntries mine theirs clock kept ↔ x ∈ kept ∨ (x ∈ mine ∧ Kept theirs clock x) := by
  have happend : ∀ (kept : List (MVEntry β)) (e : MVEntry β), (∀ y ∈ kept, known y) → known e →
      ∀ y, y ∈ appendMVEntryUnique kept e ↔ y ∈ kept ∨ y = e := by
    intro kept e hkept he y
    unfold appendMVEntryUnique
    split_ifs with hin
    · obtain ⟨z, hz, hze⟩ := (containsMVDot_iff kept e.dot).mp hin
      have hmem : e ∈ kept := hknown (hkept z hz) he hze ▸ hz
      exact ⟨.inl, fun h => h.elim id fun h => h ▸ hmem⟩
    · simp
  have hguard : (!isDominated x.dot clock || containsMVDot theirs x.dot) = true ↔
      Kept theirs clock x := by
    simp [Kept, isDominated]
  rw [keepEntries, mem_foldl_keep happend mine kept hmine hkept, hguard]

lemma mem_entries_merge {known : MVEntry β → Prop}
    (hknown : ∀ {x y}, known x → known y → x.dot = y.dot → x = y) {r o : MVRegister β}
    (hr : ∀ x ∈ r.entries, known x) (ho : ∀ x ∈ o.entries, known x) (x : MVEntry β) :
    x ∈ (r.merge o).entries ↔ (x ∈ r.entries ∧ Kept o.entries o.clock x) ∨
      (x ∈ o.entries ∧ Kept r.entries r.clock x) := by
  have hfirst := mem_keepEntries hknown r.entries o.entries o.clock [] hr (by simp)
  have hkept : ∀ y ∈ keepEntries r.entries o.entries o.clock [], known y := by
    intro y hy
    rcases (hfirst y).mp hy with h | ⟨h, -⟩
    · simp at h
    · exact hr y h
  unfold merge
  rw [mem_keepEntries hknown _ _ _ _ ho hkept, hfirst]
  simp

/-! ## Maximal writes of a causal past -/

/-- Every operation of the register is a write. -/
def isWrite (_ : β) : Bool := true

/-- Replicas are named by their node IDs; the operation of a step is the value set. -/
def registers : Object NodeID β Unit (MVRegister β) :=
  stateBased newMVRegister (fun nodeID value r => r.set nodeID value) merge

/-- The entry a write leaves: its value under the dot of its place among the
writes of its node. -/
def entryOf (log : List (Event NodeID β)) (i : ℕ) : Option (MVEntry β) :=
  log[i]?.map fun e => ⟨e.op, ⟨e.node, seq isWrite log i⟩⟩

/-- Some write of `H` has seen write `i`. -/
def Superseded (log : List (Event NodeID β)) (H : Finset ℕ) (i : ℕ) : Prop :=
  ∃ j ∈ H, ∃ g ∈ log[j]?, i ∈ g.past

instance (log : List (Event NodeID β)) (H : Finset ℕ) : DecidablePred (Superseded log H) :=
  fun i => inferInstanceAs (Decidable (∃ j ∈ H, ∃ g ∈ log[j]?, i ∈ g.past))

/-- The writes of `H` that no write of `H` has seen. -/
def maximal (log : List (Event NodeID β)) (H : Finset ℕ) : Finset ℕ :=
  H.filter fun i => ¬ Superseded log H i

section Tracking
variable {log : List (Event NodeID β)} {H K : Finset ℕ} {i j : ℕ} {x : MVEntry β}

/-- Any write supersedes what it has seen. -/
abbrev Top (log : List (Event NodeID β)) (H : Finset ℕ) (i : ℕ) : Prop :=
  Survives (fun _ => True) log H i

lemma mem_maximal : i ∈ maximal log H ↔ Top log H i := by
  simp [maximal, Superseded, Survives]

lemma entryOf_eq_some : entryOf log i = some x ↔
    ∃ e, log[i]? = some e ∧ x = ⟨e.op, ⟨e.node, seq isWrite log i⟩⟩ := by
  rw [entryOf, Option.map_eq_some_iff]
  exact exists_congr fun e => and_congr_right fun _ => eq_comm

lemma isTick_of_entryOf (h : entryOf log i = some x) : IsTick isWrite log x.dot.nodeID i := by
  obtain ⟨e, he, rfl⟩ := entryOf_eq_some.mp h
  exact ⟨e, he, rfl, rfl⟩

lemma counter_of_entryOf (h : entryOf log i = some x) : x.dot.counter = seq isWrite log i := by
  obtain ⟨e, -, rfl⟩ := entryOf_eq_some.mp h
  rfl

/-- Dots identify writes. -/
lemma entryOf_inj (hlog : WellFormed log) {y : MVEntry β} (hx : entryOf log i = some x)
    (hy : entryOf log j = some y) (hdot : x.dot = y.dot) : i = j := by
  have hj : IsTick isWrite log x.dot.nodeID j := hdot ▸ isTick_of_entryOf hy
  refine seq_inj hlog (isTick_of_entryOf hx) hj ?_
  rw [← counter_of_entryOf hx, ← counter_of_entryOf hy, hdot]

/-- The clock counts the writes of `H`, and the entries are its top writes. -/
structure Tracks (log : List (Event NodeID β)) (H : Finset ℕ) (r : MVRegister β) : Prop where
  clock : Stores r.clock (ticks isWrite log H)
  entries : ∀ {x}, x ∈ r.entries ↔ ∃ i, Top log H i ∧ entryOf log i = some x
  nodup : (r.entries.map MVEntry.dot).Nodup

variable {r : MVRegister β}

lemma tracks_concat (hlog : WellFormed log) (hH : Closed log H)
    (h : Tracks log H r) (f : Event NodeID β) : Tracks (log ++ [f]) H r where
  clock := h.clock.congr fun n => (ticks_concat hH f n).symm
  entries {x} := by
    rw [h.entries]
    refine exists_congr fun i => ?_
    rw [Top, Top, survives_concat hH]
    refine and_congr_right fun hi => ?_
    have hlt := hH.lt_length hi.1
    rw [entryOf, entryOf, getElem?_append_left hlt, seq_concat hlog hlt]
  nodup := h.nodup

lemma tracks_set {n : NodeID} (hH : Closed log H) (h : Tracks log H r)
    (v : β) : Tracks (log ++ [⟨n, v, H⟩]) (insert log.length H) (r.set n v) where
  clock := by
    refine (h.clock.increment n).congr fun m => ?_
    simp [ticks_insert_last hH, isWrite]
  entries {x} := by
    have hseq : seq isWrite (log ++ [⟨n, v, H⟩]) log.length = count r.clock n + 1 := by
      rw [seq_eq getElem?_concat_length, ticks_concat hH, h.clock.count]
    have hlast : entryOf (log ++ [⟨n, v, H⟩]) log.length =
        some ⟨v, ⟨n, count r.clock n + 1⟩⟩ := by
      rw [entryOf, getElem?_concat_length, hseq]
      rfl
    simp only [set, mem_singleton, Top, survives_insert_last hH, not_true, false_and,
      or_false, exists_eq_left, hlast, Option.some.injEq]
    exact eq_comm
  nodup := by simp [set]

/-- Keeping an entry of one side means that the other side has not seen its write
or has it among its own top writes. -/
lemma Tracks.kept_iff (hlog : WellFormed log) (hK : Closed log K) {o : MVRegister β}
    (ho : Tracks log K o) (hx : entryOf log i = some x) :
    Kept o.entries o.clock x ↔ i ∉ K ∨ Top log K i := by
  refine or_congr ?_ ?_
  · rw [counter_of_entryOf hx, ho.clock.count, mem_iff_seq_le hlog hK (isTick_of_entryOf hx)]
  · constructor
    · rintro ⟨y, hy, hdot⟩
      obtain ⟨j, hj, hyj⟩ := ho.entries.mp hy
      exact entryOf_inj hlog hyj hx hdot ▸ hj
    · intro hi
      exact ⟨x, ho.entries.mpr ⟨i, hi, hx⟩, rfl⟩

lemma tracks_merge (hlog : WellFormed log) (hH : Closed log H) (hK : Closed log K)
    {r o : MVRegister β} (hr : Tracks log H r) (ho : Tracks log K o) :
    Tracks log (H ∪ K) (r.merge o) where
  clock := (hr.clock.join ho.clock).congr fun n => (ticks_union hlog hH hK n).symm
  entries {x} := by
    have hknown : ∀ {x y}, (∃ i, entryOf log i = some x) → (∃ i, entryOf log i = some y) →
        x.dot = y.dot → x = y := by
      rintro x y ⟨i, hx⟩ ⟨j, hy⟩ hdot
      rw [entryOf_inj hlog hx hy hdot, hy] at hx
      exact (Option.some.inj hx).symm
    have hside : ∀ {H : Finset ℕ} {r : MVRegister β}, Tracks log H r →
        ∀ x ∈ r.entries, ∃ i, entryOf log i = some x := by
      intro H r hr x hx
      obtain ⟨i, -, hi⟩ := hr.entries.mp hx
      exact ⟨i, hi⟩
    rw [mem_entries_merge hknown (hside hr) (hside ho), hr.entries, ho.entries]
    constructor
    · rintro (⟨⟨i, hi, hx⟩, hkept⟩ | ⟨⟨i, hi, hx⟩, hkept⟩)
      · rw [ho.kept_iff hlog hK hx] at hkept
        exact ⟨i, (survives_union hH hK).mpr (.inl ⟨hi, hkept⟩), hx⟩
      · rw [hr.kept_iff hlog hH hx] at hkept
        exact ⟨i, (survives_union hH hK).mpr (.inr ⟨hi, hkept⟩), hx⟩
    · rintro ⟨i, hi, hx⟩
      rw [ho.kept_iff hlog hK hx, hr.kept_iff hlog hH hx]
      rcases (survives_union hH hK).mp hi with ⟨hi, hkept⟩ | ⟨hi, hkept⟩
      · exact .inl ⟨⟨i, hi, hx⟩, hkept⟩
      · exact .inr ⟨⟨i, hi, hx⟩, hkept⟩
  nodup := nodup_keepEntries _ _ _ _ (nodup_keepEntries _ _ _ _ (by simp))

lemma simulation : Simulation isWrite (fun _ : β => True) newMVRegister
    (fun nodeID value r => r.set nodeID value) merge Tracks where
  init _ :=
    { clock := stores_empty.congr fun n => by simp [ticks]
      entries := by simp [newMVRegister, Survives]
      nodup := by simp [newMVRegister] }
  concat hlog hH h f := tracks_concat hlog hH h f
  event {_ _ _ _ v} _ _ _ hH _ h := tracks_set hH h v
  silent _ hev _ _ _ := by simp [isWrite] at hev
  merge hlog hH hK hr ho := tracks_merge hlog hH hK hr ho

lemma Tracks.entries_eq (hlog : WellFormed log) (hH : Closed log H) (h : Tracks log H r) :
    (r.entries.map some : Multiset (Option (MVEntry β))) =
      (maximal log H).val.map (entryOf log) := by
  have hwrite : ∀ i ∈ H, ∃ x, entryOf log i = some x := by
    intro i hi
    obtain ⟨e, he, -⟩ := hH i hi
    exact ⟨_, entryOf_eq_some.mpr ⟨e, he, rfl⟩⟩
  have hleft : (r.entries.map some).Nodup := (h.nodup.of_map _).map (Option.some_injective _)
  have hright : ((maximal log H).val.map (entryOf log)).Nodup := by
    refine Multiset.Nodup.map_on ?_ (maximal log H).nodup
    intro i hi j hj hij
    obtain ⟨x, hx⟩ := hwrite i (mem_maximal.mp hi).1
    exact entryOf_inj hlog hx (hij ▸ hx) rfl
  -- Neither side repeats an entry, so it is enough to compare members.
  refine (Multiset.Nodup.ext (Multiset.coe_nodup.mpr hleft) hright).mpr fun o => ?_
  simp only [Multiset.mem_coe, mem_map, Multiset.mem_map, Finset.mem_val, mem_maximal]
  constructor
  · rintro ⟨x, hx, rfl⟩
    exact h.entries.mp hx
  · rintro ⟨i, hi, rfl⟩
    obtain ⟨x, hx⟩ := hwrite i hi.1
    exact ⟨x, h.entries.mpr ⟨i, hi, hx⟩, hx.symm⟩

/-- Two registers with the same clock and, up to order, the same entries. The flag
that marks unsent changes is local and not compared. -/
structure Same (r o : MVRegister β) : Prop where
  entries : r.entries.Perm o.entries
  clock : ∀ n, r.clock.lookup n = o.clock.lookup n

/-- A causal past determines the register that represents it. -/
lemma Tracks.same {r o : MVRegister β} (hr : Tracks log H r) (ho : Tracks log H o) : Same r o where
  entries := (perm_ext_iff_of_nodup (hr.nodup.of_map _) (ho.nodup.of_map _)).mpr
    fun _ => hr.entries.trans ho.entries.symm
  clock n := (hr.clock n).trans (ho.clock n).symm

end Tracking

/-- In every run the entries of each replica are the maximal writes of its causal
past, each once, and merging the states of a run is commutative, associative and
idempotent. -/
theorem entries_are_maximal_writes (steps : List (Step NodeID β Unit)) :
    (∀ n, (((registers.run steps).state n).entries.map some : Multiset (Option (MVEntry β))) =
      (maximal (causality isWrite steps).log ((causality isWrite steps).past n)).val.map
        (entryOf (causality isWrite steps).log)) ∧
    ∀ r o p : MVRegister β, (registers.run steps).Holds r → (registers.run steps).Holds o →
      (registers.run steps).Holds p →
      Same (r.merge o) (o.merge r) ∧ Same ((r.merge o).merge p) (r.merge (o.merge p)) ∧
        Same (r.merge r) r := by
  have hsound := causality_sound isWrite steps
  have hrun := simulation.run steps (fun _ _ _ => trivial)
  refine ⟨fun n => (hrun.state n).entries_eq hsound.log (hsound.past n), ?_⟩
  intro r o p hr ho hp
  obtain ⟨H, hH, hr⟩ := hrun.holds hsound hr
  obtain ⟨K, hK, ho⟩ := hrun.holds hsound ho
  obtain ⟨L, hL, hp⟩ := hrun.holds hsound hp
  have hro := tracks_merge hsound.log hH hK hr ho
  have hor := tracks_merge hsound.log hK hH ho hr
  have hleft := tracks_merge hsound.log (hH.union hK) hL hro hp
  have hright := tracks_merge hsound.log hH (hK.union hL) hr (tracks_merge hsound.log hK hL ho hp)
  have hself := tracks_merge hsound.log hH hH hr hr
  refine ⟨hro.same (Finset.union_comm K H ▸ hor), hleft.same ?_, ?_⟩
  · rw [Finset.union_assoc]
    exact hright
  · rw [Finset.union_self] at hself
    exact hself.same hr

/-- Two concurrent writes, the second one delivered to the writer of the first. -/
def concurrentWrites : List (Step NodeID ℕ Unit) :=
  [.update "node-1" 1, .update "node-2" 2, .emit "node-2" (), .deliver "node-1" 0]

theorem concurrentWrites_kept :
    ((registers.run concurrentWrites).state "node-1").values = [1, 2] ∧
    Same (((registers.run concurrentWrites).state "node-1").merge
        ((registers.run concurrentWrites).state "node-2"))
      (((registers.run concurrentWrites).state "node-2").merge
        ((registers.run concurrentWrites).state "node-1")) :=
  ⟨by decide, ((entries_are_maximal_writes concurrentWrites).2 _ _ _ (.inl ⟨"node-1", rfl⟩)
    (.inl ⟨"node-2", rfl⟩) (.inl ⟨"node-1", rfl⟩)).1⟩

end MVRegister
end GoAkt.Crdt
