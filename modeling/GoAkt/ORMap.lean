import GoAkt.ORSet
import GoAkt.ReplicaRuns

/-!
# The observed-remove map

Keys form an observed-remove set and values are replicated data of their own.
Removing a key deletes its value, so a merge of two maps that leaves no dot of a
key also forgets what they stored under it. A third map that still holds the key
then decides alone, whereas another grouping of the same merge joins all values.
The last section gives the exact condition under which the grouping does not
matter.
-/
namespace GoAkt.Crdt
open ORSet GoAkt.FiniteMaps GoAkt.VersionVectors GoAkt.Joins GoAkt.ReplicaRuns List

/-- The field `keySet` is the field `keys` of the source. -/
structure ORMap (κ V : Type*) where
  keySet : ORSet κ
  values : Map κ V
  dirty : Bool

def newORMap {κ V : Type*} : ORMap κ V := ⟨newORSet, ∅, false⟩

namespace ORMap
variable {κ V : Type*} [DecidableEq κ] [ReplicatedData V] (m : ORMap κ V)

def set (nodeID : NodeID) (key : κ) (value : V) : ORMap κ V where
  keySet := m.keySet.add nodeID key
  values := match m.values.lookup key with
    | some existing => m.values.insert key (ReplicatedData.merge existing value)
    | none => m.values.insert key value
  dirty := true

def remove (m : ORMap κ V) (key : κ) : ORMap κ V :=
  if m.keySet.contains key then ⟨m.keySet.remove key, m.values.erase key, true⟩ else m

def get (key : κ) : Option V :=
  if m.keySet.contains key then m.values.lookup key else none

def keys : List κ := m.keySet.elements

def merge (m o : ORMap κ V) : ORMap κ V where
  keySet := m.keySet.merge o.keySet
  values := collect (m.keySet.merge o.keySet).elements fun key =>
    joinOption ReplicatedData.merge (m.values.lookup key) (o.values.lookup key)
  dirty := false

def delta : Option (ORMap κ V) := if m.dirty then some m else none

def resetDelta (m : ORMap κ V) : ORMap κ V :=
  { m with dirty := false, keySet := m.keySet.resetDelta }

def compact (m : ORMap κ V) : ORMap κ V where
  keySet := m.keySet.compact
  values := collect m.keySet.compact.elements fun key => m.values.lookup key
  dirty := false

instance : ReplicatedData (ORMap κ V) where
  merge := merge
  delta := delta
  resetDelta := resetDelta
  compactData m := some m.compact

/-! ## Runs of replicated maps -/

inductive MapOp (κ V : Type*) where
  | set (key : κ) (value : V)
  | remove (key : κ)

def applyOp (nodeID : NodeID) : MapOp κ V → ORMap κ V → ORMap κ V
  | .set key value, m => m.set nodeID key value
  | .remove key, m => m.remove key

/-- Replicas are named by their node IDs, which makes those pairwise distinct. -/
def replicas : Object NodeID (MapOp κ V) Unit (ORMap κ V) := stateBased newORMap applyOp merge

/-- Exactly the present keys have values, and these belong to the class `S` of
their key. -/
structure Consistent (S : κ → V → Prop) (m : ORMap κ V) : Prop where
  covered : m.keySet.Covered
  stored : ∀ k, (m.values.lookup k).isSome ↔ m.keySet.dots k ≠ []
  valid : ∀ k, ∀ v ∈ m.values.lookup k, S k v

lemma lookup_values_set (n : NodeID) (key k : κ) (value : V) : (m.set n key value).values.lookup k =
      if k = key then joinOption ReplicatedData.merge (m.values.lookup key) (some value)
      else m.values.lookup k := by
  unfold set
  cases hv : m.values.lookup key <;> simp [lookup_insert_ite]

lemma lookup_values_merge (m o : ORMap κ V) (k : κ) : (m.merge o).values.lookup k =
    if (m.keySet.merge o.keySet).dots k ≠ [] then
      joinOption ReplicatedData.merge (m.values.lookup k) (o.values.lookup k)
    else none := by
  simp only [merge, lookup_collect, mem_elements]

section Invariant
variable {S : κ → V → Prop} {m : ORMap κ V}

omit [ReplicatedData V] in
lemma Consistent.get_eq (h : Consistent S m) (k : κ) : m.get k = m.values.lookup k := by
  unfold get
  by_cases hk : m.keySet.dots k = []
  · have hv := h.stored k
    rw [if_neg (by simp [ORSet.contains_iff, hk])]
    simp only [hk, ne_eq, not_true, iff_false, Bool.not_eq_true, Option.isSome_eq_false_iff,
      Option.isNone_iff_eq_none] at hv
    exact hv.symm
  · rw [if_pos ((contains_iff _ _).mpr hk)]

variable {eqv : V → V → Prop} (hS : ∀ k, JoinOn (S k) eqv ReplicatedData.merge)
include hS

lemma consistent_set (h : Consistent S m) (n : NodeID) {key : κ} {value : V}
    (hv : S key value) : Consistent S (m.set n key value) where
  covered := covered_add h.covered n key
  stored k := by
    rw [lookup_values_set]
    change _ ↔ (m.keySet.add n key).dots k ≠ []
    rw [dots_add]
    split_ifs with hk
    · cases m.values.lookup key <;> simp
    · exact h.stored k
  valid k v hmem := by
    rw [lookup_values_set] at hmem
    split_ifs at hmem with hk
    · subst hk
      exact (hS k).option.closed (h.valid k) (by simpa using hv) v hmem
    · exact h.valid k v hmem

omit hS in
omit [ReplicatedData V] in
lemma consistent_remove (h : Consistent S m) (key : κ) : Consistent S (m.remove key) := by
  unfold remove
  split_ifs with hc
  · refine ⟨covered_remove h.covered key, fun k => ?_, fun k v hmem => ?_⟩
    · rw [lookup_erase_ite, dots_remove]
      split_ifs with hk
      · simp
      · exact h.stored k
    · rw [lookup_erase_ite] at hmem
      split_ifs at hmem with hk
      · cases hmem
      · exact h.valid k v hmem
  · exact h

lemma consistent_merge {m o : ORMap κ V} (hm : Consistent S m) (ho : Consistent S o) :
    Consistent S (m.merge o) where
  covered := covered_merge hm.covered ho.covered
  stored k := by
    rw [lookup_values_merge]
    change _ ↔ (m.keySet.merge o.keySet).dots k ≠ []
    by_cases hk : (m.keySet.merge o.keySet).dots k = []
    · simp [hk]
    · have hside : (m.values.lookup k).isSome ∨ (o.values.lookup k).isSome := by
        obtain ⟨d, hd⟩ := exists_mem_of_ne_nil _ hk
        rcases (mem_dots_merge _ _ k d).mp hd with ⟨hd, -⟩ | ⟨hd, -⟩
        · exact .inl ((hm.stored k).mpr (ne_nil_of_mem hd))
        · exact .inr ((ho.stored k).mpr (ne_nil_of_mem hd))
      rw [if_pos hk]
      cases hl : m.values.lookup k <;> cases hr : o.values.lookup k <;> simp_all
  valid k v hmem := by
    rw [lookup_values_merge] at hmem
    split_ifs at hmem with hk
    · exact (hS k).option.closed (hm.valid k) (ho.valid k) v hmem
    · cases hmem

/-- The invariant holds of every map held in a run that sets valid values. -/
lemma consistent_run (steps : List (Step NodeID (MapOp κ V) Unit))
    (hsteps : ∀ n k v, Step.update n (.set k v) ∈ steps → S k v)
    (hm : (replicas.run steps).Holds m) : Consistent S m := by
  have hnew : Consistent S (newORMap : ORMap κ V) :=
    ⟨covered_new, by simp [newORMap], by simp [newORMap]⟩
  refine replicas.run_invariant (Consistent S) (fun _ op => ∀ k v, op = .set k v → S k v)
    hnew ?_ ?_ (fun _ _ => consistent_merge hS) steps ?_ m hm
  · intro n op s hop hs
    cases op with
    | set k v => exact consistent_set hS hs n (hop k v rfl)
    | remove k => exact consistent_remove hs k
  · intro _ s hs
    refine ⟨hs, fun t ht => ?_⟩
    cases ht
    exact hs
  · rintro n op hmem k v rfl
    exact hsteps n k v hmem

end Invariant

/-! ## Order independence of merging -/

/-- What an observer sees of two maps agrees: the keys, and each value up to `eqv`. -/
def SameMap (eqv : V → V → Prop) (m o : ORMap κ V) : Prop :=
  (∀ k, k ∈ m.keys ↔ k ∈ o.keys) ∧ ∀ k, Option.Rel eqv (m.get k) (o.get k)

/-- Each side has seen and dropped every dot the other one holds for the key. -/
def Cancel (a b : ORMap κ V) (k : κ) : Prop :=
  (∀ d ∈ a.keySet.dots k, d.counter ≤ count b.keySet.clock d.nodeID ∧ d ∉ b.keySet.dots k) ∧
  ∀ d ∈ b.keySet.dots k, d.counter ≤ count a.keySet.clock d.nodeID ∧ d ∉ a.keySet.dots k

/-- The first map holds a dot for the key that neither of the others has seen. -/
def Outlives (c a b : ORMap κ V) (k : κ) : Prop :=
  ∃ d ∈ c.keySet.dots k, ¬ d.counter ≤ count a.keySet.clock d.nodeID ∧
    ¬ d.counter ≤ count b.keySet.clock d.nodeID

/-- The value of the first map already contains the values of the others. -/
def Absorbs (eqv : V → V → Prop) (c a b : ORMap κ V) (k : κ) : Prop :=
  ∀ u v, (a.get k = some u ∨ b.get k = some u) → c.get k = some v →
    Below eqv ReplicatedData.merge u v

/-- Wherever two neighbours cancel a key that the third map keeps alive, the
third value absorbs the two that are forgotten. -/
def GroupingSafe (eqv : V → V → Prop) (a b c : ORMap κ V) : Prop :=
  ∀ k, (Cancel a b k → Outlives c a b k → Absorbs eqv c a b k) ∧
    (Cancel b c k → Outlives a b c k → Absorbs eqv a b c k)

section Grouping
variable {S : κ → V → Prop} {eqv : V → V → Prop} {a b c : ORMap κ V} {k : κ}

lemma dots_merge_eq_nil_iff (a b : ORMap κ V) (k : κ) :
    (a.merge b).keySet.dots k = [] ↔ Cancel a b k := by
  simp only [merge, eq_nil_iff_forall_not_mem, mem_dots_merge]
  constructor
  · intro h
    refine ⟨fun d hd => ?_, fun d hd => ?_⟩
    · have := h d
      tauto
    · have := h d
      tauto
  · rintro ⟨ha, hb⟩ d (⟨hd, hkeep⟩ | ⟨hd, hkeep⟩)
    · have := ha d hd
      tauto
    · have := hb d hd
      tauto

/-- Of a key that `a` and `b` cancel, the merge with `c` keeps what they have not seen. -/
lemma not_cancel_merge_iff (hcancel : Cancel a b k) :
    ¬ Cancel c (a.merge b) k ↔ Outlives c a b k := by
  rw [← dots_merge_eq_nil_iff]
  have hnil := (dots_merge_eq_nil_iff a b k).mpr hcancel
  have hmem : ∀ d, d ∈ (c.merge (a.merge b)).keySet.dots k ↔ d ∈ c.keySet.dots k ∧
      ¬ (d.counter ≤ count a.keySet.clock d.nodeID ∨
        d.counter ≤ count b.keySet.clock d.nodeID) := by
    intro d
    change d ∈ (c.keySet.merge (a.merge b).keySet).dots k ↔ _
    rw [mem_dots_merge, hnil]
    simp [merge]
  constructor
  · intro hne
    obtain ⟨d, hd⟩ := exists_mem_of_ne_nil _ hne
    obtain ⟨hdc, hunseen⟩ := (hmem d).mp hd
    exact ⟨d, hdc, not_or.mp hunseen⟩
  · rintro ⟨d, hdc, hunseen⟩
    exact ne_nil_of_mem ((hmem d).mpr ⟨hdc, not_or.mpr hunseen⟩)

section
omit [ReplicatedData V]

lemma Cancel.symm (h : Cancel a b k) : Cancel b a k := ⟨h.2, h.1⟩

lemma Consistent.valid_get (ha : Consistent S a) (k : κ) : ∀ v ∈ a.get k, S k v := by
  rw [ha.get_eq]
  exact ha.valid k

lemma Consistent.exists_get (ha : Consistent S a) (hk : a.keySet.dots k ≠ []) :
    ∃ v, a.get k = some v := by
  rw [ha.get_eq]
  exact Option.isSome_iff_exists.mp ((ha.stored k).mpr hk)

end

lemma cancel_assoc (ha : Consistent S a) (hb : Consistent S b) (hc : Consistent S c) :
    Cancel (a.merge b) c k ↔ Cancel a (b.merge c) k := by
  have hsame := (merge_joinOn.assoc ha.covered hb.covered hc.covered).2 k
  rw [← dots_merge_eq_nil_iff, ← dots_merge_eq_nil_iff, eq_nil_iff_forall_not_mem,
    eq_nil_iff_forall_not_mem]
  exact forall_congr' fun d => not_congr (hsame d)

variable (hS : ∀ k, JoinOn (S k) eqv ReplicatedData.merge)
include hS

section
variable (ha : Consistent S a) (hb : Consistent S b)
include ha hb

lemma get_merge_of_cancel (h : Cancel a b k) : (a.merge b).get k = none := by
  have hnil : (a.keySet.merge b.keySet).dots k = [] := (dots_merge_eq_nil_iff a b k).mpr h
  rw [(consistent_merge hS ha hb).get_eq, lookup_values_merge, if_neg (not_not.mpr hnil)]

lemma get_merge_of_not_cancel (h : ¬ Cancel a b k) :
    (a.merge b).get k = joinOption ReplicatedData.merge (a.get k) (b.get k) := by
  have hne : (a.keySet.merge b.keySet).dots k ≠ [] :=
    fun hnil => h ((dots_merge_eq_nil_iff a b k).mp hnil)
  rw [(consistent_merge hS ha hb).get_eq, lookup_values_merge, if_pos hne, ha.get_eq, hb.get_eq]

lemma rel_join_iff_absorbs (hc : Consistent S c) (hk : c.keySet.dots k ≠ []) :
    Option.Rel eqv (c.get k) (joinOption ReplicatedData.merge (a.get k)
      (joinOption ReplicatedData.merge (b.get k) (c.get k))) ↔ Absorbs eqv c a b k := by
  obtain ⟨v, hv⟩ := hc.exists_get hk
  rw [(hS k).option.eqv_join_join_iff (ha.valid_get k) (hb.valid_get k) (hc.valid_get k), hv,
    below_option_some (hS k).refl, below_option_some (hS k).refl]
  constructor
  · rintro ⟨hav, hbv⟩ u v' (hu | hu) hv'
    · rw [hv] at hv'
      cases hv'
      exact hav u hu
    · rw [hv] at hv'
      cases hv'
      exact hbv u hu
  · intro h
    exact ⟨fun u hu => h u v (.inl hu) hv, fun u hu => h u v (.inr hu) hv⟩

/-- Both groupings give the same value of a key exactly when the key is safe. -/
lemma rel_get_assoc_iff (hc : Consistent S c) :
    Option.Rel eqv (((a.merge b).merge c).get k) ((a.merge (b.merge c)).get k) ↔
      (Cancel a b k → Outlives c a b k → Absorbs eqv c a b k) ∧
      (Cancel b c k → Outlives a b c k → Absorbs eqv a b c k) := by
  have hab := consistent_merge hS ha hb
  have hbc := consistent_merge hS hb hc
  have J := (hS k).option
  have hva := ha.valid_get k
  have hvb := hb.valid_get k
  have hvc := hc.valid_get k
  -- The key set is associative, so both groupings agree on whether the key survives.
  -- If it does, at most one of the inner merges can have forgotten its values.
  by_cases hall : Cancel (a.merge b) c k
  · have hall' := (cancel_assoc ha hb hc).mp hall
    rw [get_merge_of_cancel hS hab hc hall, get_merge_of_cancel hS ha hbc hall']
    refine iff_of_true .none ⟨fun hcancel hout => ?_, fun hcancel hout => ?_⟩
    · exact absurd hall.symm ((not_cancel_merge_iff hcancel).mpr hout)
    · exact absurd hall' ((not_cancel_merge_iff hcancel).mpr hout)
  · have hall' : ¬ Cancel a (b.merge c) k := fun h => hall ((cancel_assoc ha hb hc).mpr h)
    rw [get_merge_of_not_cancel hS hab hc hall, get_merge_of_not_cancel hS ha hbc hall']
    by_cases hleft : Cancel a b k
    · have hout : Outlives c a b k :=
        (not_cancel_merge_iff hleft).mp fun h => hall h.symm
      have hright : ¬ Cancel b c k := by
        obtain ⟨d, hd, -, hunseen⟩ := hout
        exact fun h => hunseen (h.2 d hd).1
      have hk : c.keySet.dots k ≠ [] := by
        obtain ⟨d, hd, -⟩ := hout
        exact ne_nil_of_mem hd
      rw [get_merge_of_cancel hS ha hb hleft, get_merge_of_not_cancel hS hb hc hright,
        joinOption_none_left, rel_join_iff_absorbs hS ha hb hc hk]
      simp [hleft, hright, hout]
    · rw [get_merge_of_not_cancel hS ha hb hleft]
      by_cases hright : Cancel b c k
      · have hout : Outlives a b c k := (not_cancel_merge_iff hright).mp hall'
        have hk : a.keySet.dots k ≠ [] := by
          obtain ⟨d, hd, -⟩ := hout
          exact ne_nil_of_mem hd
        have hrot : Option.Rel eqv
            (joinOption ReplicatedData.merge (joinOption ReplicatedData.merge (a.get k) (b.get k))
              (c.get k))
            (joinOption ReplicatedData.merge (b.get k)
              (joinOption ReplicatedData.merge (c.get k) (a.get k))) :=
          J.trans (J.assoc hva hvb hvc) (J.trans (J.comm hva (J.closed hvb hvc))
            (J.assoc hvb hvc hva))
        rw [get_merge_of_cancel hS hb hc hright, joinOption_none_right]
        have hrel := rel_join_iff_absorbs hS hb hc ha hk
        simp only [hleft, hright, hout, false_implies, true_implies, true_and, ← hrel]
        exact ⟨fun h => J.trans (J.symm h) hrot, fun h => J.trans hrot (J.symm h)⟩
      · rw [get_merge_of_not_cancel hS hb hc hright]
        refine iff_of_true (J.assoc hva hvb hvc) ⟨fun h => absurd h hleft, fun h => absurd h hright⟩

lemma sameMap_merge_comm : SameMap eqv (a.merge b) (b.merge a) := by
  have hcancel : ∀ k, Cancel a b k ↔ Cancel b a k := fun k => ⟨.symm, .symm⟩
  refine ⟨fun k => ?_, fun k => ?_⟩
  · rw [keys, keys, mem_elements, mem_elements, ne_eq, ne_eq,
      dots_merge_eq_nil_iff, dots_merge_eq_nil_iff, hcancel]
  · by_cases h : Cancel a b k
    · rw [get_merge_of_cancel hS ha hb h, get_merge_of_cancel hS hb ha h.symm]
      exact .none
    · rw [get_merge_of_not_cancel hS ha hb h,
        get_merge_of_not_cancel hS hb ha (fun h' => h h'.symm)]
      exact (hS k).option.comm (ha.valid_get k) (hb.valid_get k)

end

lemma sameMap_merge_self (ha : Consistent S a) : SameMap eqv (a.merge a) a := by
  have hcancel : ∀ k, Cancel a a k ↔ a.keySet.dots k = [] := by
    intro k
    rw [eq_nil_iff_forall_not_mem]
    constructor
    · exact fun h d hd => (h.1 d hd).2 hd
    · exact fun h => ⟨fun d hd => absurd hd (h d), fun d hd => absurd hd (h d)⟩
  refine ⟨fun k => ?_, fun k => ?_⟩
  · rw [keys, keys, mem_elements, mem_elements, ne_eq, ne_eq,
      dots_merge_eq_nil_iff, hcancel]
  · by_cases h : Cancel a a k
    · have hnone : a.get k = none := by
        rw [ha.get_eq, ← Option.not_isSome_iff_eq_none, ha.stored k]
        exact not_not.mpr ((hcancel k).mp h)
      rw [get_merge_of_cancel hS ha ha h, hnone]
      exact .none
    · rw [get_merge_of_not_cancel hS ha ha h]
      exact (hS k).option.idem (ha.valid_get k)

/-- Merging the maps of a run is commutative and idempotent, and it is associative
for three of them exactly when their grouping is safe. -/
theorem merge_order_independent_iff (steps : List (Step NodeID (MapOp κ V) Unit))
    (hsteps : ∀ n k v, Step.update n (.set k v) ∈ steps → S k v)
    (ha : (replicas.run steps).Holds a) (hb : (replicas.run steps).Holds b)
    (hc : (replicas.run steps).Holds c) :
    (SameMap eqv (a.merge b) (b.merge a) ∧
      SameMap eqv ((a.merge b).merge c) (a.merge (b.merge c)) ∧
      SameMap eqv (a.merge a) a) ↔ GroupingSafe eqv a b c := by
  have ha := consistent_run hS steps hsteps ha
  have hb := consistent_run hS steps hsteps hb
  have hc := consistent_run hS steps hsteps hc
  have hkeys : ∀ k, k ∈ ((a.merge b).merge c).keys ↔ k ∈ (a.merge (b.merge c)).keys := by
    intro k
    rw [keys, keys, mem_elements, mem_elements, ne_eq, ne_eq,
      dots_merge_eq_nil_iff, dots_merge_eq_nil_iff, cancel_assoc ha hb hc]
  constructor
  · rintro ⟨-, hassoc, -⟩ k
    exact (rel_get_assoc_iff hS ha hb hc).mp (hassoc.2 k)
  · intro hsafe
    refine ⟨sameMap_merge_comm hS ha hb, ⟨hkeys, fun k => ?_⟩, sameMap_merge_self hS ha⟩
    exact (rel_get_assoc_iff hS ha hb hc).mpr (hsafe k)

end Grouping

section Example

/-- One replica sets a key, a second one receives the map and removes the key, and
a third one sets the key without having heard of either. -/
def staleCopyRun : List (Step NodeID (MapOp String (ORSet String)) Unit) :=
  [.update "node-1" (.set "k" (newORSet.add "node-1" "x")), .emit "node-1" (),
    .deliver "node-2" 0, .update "node-2" (.remove "k"),
    .update "node-3" (.set "k" (newORSet.add "node-3" "y"))]

lemma staleCopyRun_valid : ∀ n k v, Step.update n (.set k v) ∈ staleCopyRun → v.Covered := by
  intro n k v h
  simp only [staleCopyRun, mem_cons, Step.update.injEq, MapOp.set.injEq, reduceCtorEq,
    and_false, not_mem_nil, or_false, false_or] at h
  rcases h with ⟨-, -, rfl⟩ | ⟨-, -, rfl⟩
  · exact covered_add covered_new _ _
  · exact covered_add covered_new _ _

theorem merge_order_independent_iff_staleCopyRun :
    (SameMap ORSet.Same
        (((replicas.run staleCopyRun).state "node-1").merge
          ((replicas.run staleCopyRun).state "node-2"))
        (((replicas.run staleCopyRun).state "node-2").merge
          ((replicas.run staleCopyRun).state "node-1")) ∧
      SameMap ORSet.Same
        ((((replicas.run staleCopyRun).state "node-1").merge
          ((replicas.run staleCopyRun).state "node-2")).merge
          ((replicas.run staleCopyRun).state "node-3"))
        (((replicas.run staleCopyRun).state "node-1").merge
          (((replicas.run staleCopyRun).state "node-2").merge
            ((replicas.run staleCopyRun).state "node-3"))) ∧
      SameMap ORSet.Same
        (((replicas.run staleCopyRun).state "node-1").merge
          ((replicas.run staleCopyRun).state "node-1"))
        ((replicas.run staleCopyRun).state "node-1")) ↔
    GroupingSafe ORSet.Same ((replicas.run staleCopyRun).state "node-1")
      ((replicas.run staleCopyRun).state "node-2") ((replicas.run staleCopyRun).state "node-3") :=
  merge_order_independent_iff (fun _ => merge_joinOn) staleCopyRun staleCopyRun_valid
    (.inl ⟨"node-1", rfl⟩) (.inl ⟨"node-2", rfl⟩) (.inl ⟨"node-3", rfl⟩)

/-- Merging the first two maps first forgets the element `x` of the first value. -/
theorem merge_not_associative :
    (∀ n k v, Step.update n (.set k v) ∈ staleCopyRun → v.Covered) ∧
    ¬ SameMap ORSet.Same
      ((((replicas.run staleCopyRun).state "node-1").merge
        ((replicas.run staleCopyRun).state "node-2")).merge
        ((replicas.run staleCopyRun).state "node-3"))
      (((replicas.run staleCopyRun).state "node-1").merge
        (((replicas.run staleCopyRun).state "node-2").merge
          ((replicas.run staleCopyRun).state "node-3"))) := by
  refine ⟨staleCopyRun_valid, fun hsame => ?_⟩
  have hseen : ∀ {m o : Option (ORSet String)}, Option.Rel ORSet.Same m o →
      (m.map fun s => s.contains "x") = o.map fun s => s.contains "x" := by
    intro m o hmo
    cases hmo with
    | none => rfl
    | some h => exact congrArg some (h.contains_eq "x")
  exact absurd (hseen (hsame.2 "k")) (by decide)

end Example
end ORMap
end GoAkt.Crdt
