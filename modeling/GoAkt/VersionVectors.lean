import GoAkt.FiniteMaps

/-!
# Version vectors

A version vector counts, for each node, how many of its events have been seen.
A missing node counts as zero. The vector is only ever raised, so a loop that
raises it along a list of stamps is determined by the bounds it reaches.
-/
namespace GoAkt.VersionVectors
open GoAkt.FiniteMaps
variable {ν : Type*} [DecidableEq ν]

abbrev VersionVector (ν : Type*) := Map ν ℕ

def count (c : VersionVector ν) (n : ν) : ℕ := (c.lookup n).getD 0

@[simp] lemma count_empty (n : ν) : count (∅ : VersionVector ν) n = 0 := by
  simp [count]

lemma count_insert (c : VersionVector ν) (n m : ν) (k : ℕ) :
    count (c.insert n k) m = if m = n then k else count c m := by
  simp only [count, lookup_insert_ite]
  split_ifs <;> rfl

/-- Raise one component, never lowering it. -/
def raise (c : VersionVector ν) (n : ν) (k : ℕ) : VersionVector ν :=
  if k > count c n then c.insert n k else c

lemma count_raise (c : VersionVector ν) (n m : ν) (k : ℕ) :
    count (raise c n k) m = if m = n then max (count c m) k else count c m := by
  unfold raise
  by_cases hk : k > count c n
  · rw [if_pos hk, count_insert]
    by_cases h : m = n
    · subst m
      simp [Nat.max_eq_right (Nat.le_of_lt hk)]
    · simp [h]
  · rw [if_neg hk]
    by_cases h : m = n
    · subst m
      simp [Nat.max_eq_left (Nat.le_of_not_lt hk)]
    · simp [h]

/-- Raise the vector by the stamp of one item, if it has one. -/
def raiseBy {δ : Type*} (stamp : δ → Option (ν × ℕ)) (c : VersionVector ν) (x : δ) :
    VersionVector ν :=
  (stamp x).elim c (fun p => raise c p.1 p.2)

/-- Raising along a list of items reaches a bound exactly when the initial vector
or the stamp of one of the items does. -/
lemma le_count_foldl_raiseBy {δ : Type*} (stamp : δ → Option (ν × ℕ)) (items : List δ)
    (c : VersionVector ν) (n : ν) (k : ℕ) :
    k ≤ count (items.foldl (raiseBy stamp) c) n ↔
      k ≤ count c n ∨ ∃ x ∈ items, ∃ j, stamp x = some (n, j) ∧ k ≤ j := by
  induction items generalizing c with
  | nil => simp
  | cons x items ih =>
    rw [List.foldl_cons, ih]
    have hone : k ≤ count (raiseBy stamp c x) n ↔
        k ≤ count c n ∨ ∃ j, stamp x = some (n, j) ∧ k ≤ j := by
      unfold raiseBy
      cases hx : stamp x with
      | none => simp
      | some p =>
        obtain ⟨m, j⟩ := p
        simp only [Option.elim_some, count_raise]
        by_cases h : n = m
        · subst m
          simp
        · simp [h, Ne.symm h]
    rw [hone]
    simp only [List.mem_cons, exists_eq_or_imp]
    exact or_assoc

/-- The same for a loop over the lists of items stored in a finite map. -/
lemma le_count_foldl_lists {κ δ : Type*} [DecidableEq κ] (stamp : δ → Option (ν × ℕ))
    (m : Map κ (List δ)) (c : VersionVector ν) (n : ν) (k : ℕ) :
    k ≤ count (m.foldl (fun c _ items => items.foldl (raiseBy stamp) c) c) n ↔
      k ≤ count c n ∨ ∃ key, ∃ x ∈ (m.lookup key).getD [], ∃ j, stamp x = some (n, j) ∧ k ≤ j := by
  have hentries : ∀ (entries : List (Sigma fun _ : κ => List δ)) (c : VersionVector ν),
      k ≤ count (entries.foldl (fun c entry => entry.2.foldl (raiseBy stamp) c) c) n ↔
        k ≤ count c n ∨ ∃ entry ∈ entries, ∃ x ∈ entry.2, ∃ j, stamp x = some (n, j) ∧ k ≤ j := by
    intro entries
    induction entries with
    | nil => simp
    | cons entry entries ih =>
      intro c
      rw [List.foldl_cons, ih, le_count_foldl_raiseBy]
      simp only [List.mem_cons, exists_eq_or_imp]
      exact or_assoc
  rw [AList.foldl, hentries]
  refine or_congr_right ?_
  constructor
  · rintro ⟨⟨key, items⟩, hmem, x, hx, hj⟩
    refine ⟨key, x, ?_, hj⟩
    rw [(mem_entries_iff_lookup m key items).mp hmem]
    exact hx
  · rintro ⟨key, x, hx, hj⟩
    cases hl : m.lookup key with
    | none => simp [hl] at hx
    | some items =>
      refine ⟨⟨key, items⟩, (mem_entries_iff_lookup m key items).mpr hl, x, ?_, hj⟩
      simpa [hl] using hx

/-- Pointwise maximum, computed by raising the left vector along the right one. -/
def join (a b : VersionVector ν) : VersionVector ν := b.foldl raise a

lemma lookup_join (a b : VersionVector ν) (n : ν) : (join a b).lookup n =
    (b.lookup n).elim (a.lookup n) (fun k => if k > count a n then some k else a.lookup n) := by
  have hown : ∀ (acc : VersionVector ν) (m : ν) (k : ℕ) (j : ν), (raise acc m k).lookup j =
      if j = m then (if k > (acc.lookup m).getD 0 then some k else acc.lookup m)
      else acc.lookup j := by
    intro acc m k j
    unfold raise
    change (if k > (acc.lookup m).getD 0 then acc.insert m k else acc).lookup j = _
    by_cases hk : k > (acc.lookup m).getD 0
    · simp only [if_pos hk, lookup_insert_ite]
    · simp only [if_neg hk]
      by_cases h : j = m
      · subst j; simp
      · simp [h]
  exact lookup_foldl_own raise (fun _ k o => if k > o.getD 0 then some k else o) hown b a n

lemma count_join (a b : VersionVector ν) (n : ν) :
    count (join a b) n = max (count a n) (count b n) := by
  rw [count, lookup_join]
  cases hb : b.lookup n with
  | none => simp [count, hb]
  | some k =>
    have hbk : count b n = k := by simp [count, hb]
    rw [hbk, Option.elim_some]
    split_ifs with hk
    · simp [Nat.max_eq_right (Nat.le_of_lt hk)]
    · exact (Nat.max_eq_left (Nat.le_of_not_lt hk)).symm

/-- The vector stores the non-zero values of `f` and nothing else. -/
def Stores (c : VersionVector ν) (f : ν → ℕ) : Prop :=
  ∀ n, c.lookup n = if f n = 0 then none else some (f n)

variable {c : VersionVector ν}

lemma Stores.count {f : ν → ℕ} (h : Stores c f) (n : ν) : count c n = f n := by
  rw [VersionVectors.count, h n]
  split_ifs with hf <;> simp [hf]

lemma stores_empty : Stores (∅ : VersionVector ν) (fun _ => 0) := by
  intro n
  simp

lemma Stores.congr {f g : ν → ℕ} (h : Stores c f) (hfg : ∀ n, f n = g n) : Stores c g := by
  intro n
  rw [h n, hfg n]

lemma Stores.increment {f : ν → ℕ} (h : Stores c f) (n : ν) :
    Stores (c.insert n (VersionVectors.count c n + 1))
      (fun m => if m = n then f m + 1 else f m) := by
  intro m
  rw [lookup_insert_ite, h.count]
  by_cases hm : m = n
  · subst m
    simp
  · simp [hm, h m]

lemma Stores.join {a b : VersionVector ν} {f g : ν → ℕ} (ha : Stores a f) (hb : Stores b g) :
    Stores (join a b) (fun n => max (f n) (g n)) := by
  intro n
  rw [lookup_join, hb n, ha n, ha.count]
  by_cases hg : g n = 0
  · simp [hg]
  · rw [if_neg hg, Option.elim_some, if_neg (show max (f n) (g n) ≠ 0 by omega)]
    by_cases hlt : g n > f n
    · simp [if_pos hlt, max_eq_right hlt.le]
    · have hf : f n ≠ 0 := by omega
      simp [if_neg hlt, hf, max_eq_left (Nat.le_of_not_lt hlt)]

end GoAkt.VersionVectors
