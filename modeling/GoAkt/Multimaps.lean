import GoAkt.FiniteMaps

/-!
# Maps of sets, and groups of them

A multimap has a set of values at each key. It is kept sparse: a key whose last value is
removed is removed. A grouped multimap has a multimap for each group, also kept sparse.
Sets are lists without duplicates, so that loops over them can be written as folds.
-/
namespace GoAkt.FiniteMaps
open List
variable {η κ α : Type*} [DecidableEq η] [DecidableEq κ] [DecidableEq α]

omit [DecidableEq α] in
/-- An empty value is not stored. -/
lemma lookup_replace (m : Map κ α) (empty : Prop) [Decidable empty] (k j : κ) (a : α) :
    (if empty then m.erase k else m.insert k a).lookup j =
      if j = k then if empty then none else some a else m.lookup j := by
  by_cases hempty : empty
  · rw [if_pos hempty, if_pos hempty]
    exact lookup_erase_ite ..
  · rw [if_neg hempty, if_neg hempty]
    exact lookup_insert_ite ..

structure Multimap (κ α : Type*) [DecidableEq κ] where
  cells : Map κ (List α)
  nonempty : ∀ k l, cells.lookup k = some l → l ≠ []
  nodup : ∀ k l, cells.lookup k = some l → l.Nodup

namespace Multimap
variable (m : Multimap κ α) (k j : κ) (a b : α)

/-- The values at a key. -/
def values : List α := (m.cells.lookup k).getD []

def empty : Multimap κ α where
  cells := ∅
  nonempty _ _ h := nomatch h
  nodup _ _ h := nomatch h

omit [DecidableEq α] in
lemma values_nodup : (m.values k).Nodup := by
  unfold values
  cases h : m.cells.lookup k with
  | none => exact nodup_nil
  | some l => exact m.nodup k l h

/-- The values at a key are replaced, and the key is dropped when there are none. -/
def put (l : List α) (hl : l.Nodup) : Multimap κ α where
  cells := if l.isEmpty then m.cells.erase k else m.cells.insert k l
  nonempty j l' h := by
    rw [lookup_replace] at h
    split_ifs at h with hj hempty
    · cases h
      exact fun hnil => hempty (isEmpty_iff.mpr hnil)
    · exact m.nonempty j l' h
  nodup j l' h := by
    rw [lookup_replace] at h
    split_ifs at h
    · cases h
      exact hl
    · exact m.nodup j l' h

omit [DecidableEq α] in
lemma values_put (l : List α) (hl : l.Nodup) :
    (m.put k l hl).values j = if j = k then l else m.values j := by
  unfold values put
  dsimp only
  rw [lookup_replace]
  split_ifs with hj hempty
  · exact (isEmpty_iff.mp hempty).symm
  · rfl
  · rfl

def add : Multimap κ α := m.put k ((m.values k).insert a) ((m.values_nodup k).insert)

def remove : Multimap κ α := m.put k ((m.values k).erase a) ((m.values_nodup k).erase a)

/-- All values of a key are removed. -/
def drop : Multimap κ α := m.put k [] nodup_nil

lemma mem_values_add : b ∈ (m.add k a).values j ↔ j = k ∧ b = a ∨ b ∈ m.values j := by
  unfold add
  rw [values_put]
  split_ifs with hj
  · subst hj
    rw [mem_insert_iff]
    exact or_congr_left ⟨fun hb => ⟨rfl, hb⟩, fun hb => hb.2⟩
  · exact ⟨.inr, fun h => h.resolve_left fun hand => hj hand.1⟩

lemma mem_values_remove : b ∈ (m.remove k a).values j ↔ b ∈ m.values j ∧ ¬(j = k ∧ b = a) := by
  unfold remove
  rw [values_put]
  split_ifs with hj
  · subst hj
    rw [(m.values_nodup j).mem_erase_iff, and_comm]
    exact and_congr_right fun _ => ⟨fun hne hand => hne hand.2, fun hne hb => hne ⟨rfl, hb⟩⟩
  · exact ⟨fun hb => ⟨hb, fun hand => hj hand.1⟩, fun hb => hb.1⟩

omit [DecidableEq α] in
lemma mem_values_drop : b ∈ (m.drop k).values j ↔ b ∈ m.values j ∧ j ≠ k := by
  unfold drop
  rw [values_put]
  split_ifs with hj
  · exact ⟨nofun, fun hb => absurd hj hb.2⟩
  · exact (and_iff_left hj).symm

/-- The multimap as a list of pairs of a key and a value. -/
def pairs : List (κ × α) := m.cells.entries.flatMap fun entry => entry.2.map (Prod.mk entry.1)

omit [DecidableEq α] in
lemma mem_pairs : (k, a) ∈ m.pairs ↔ a ∈ m.values k := by
  unfold pairs values
  rw [mem_flatMap]
  constructor
  · rintro ⟨⟨j, l⟩, hentry, hmem⟩
    obtain ⟨b, hb, heq⟩ := mem_map.mp hmem
    cases heq
    rw [(mem_entries_iff_lookup m.cells j l).mp hentry]
    exact hb
  · intro ha
    cases h : m.cells.lookup k with
    | none =>
      rw [h] at ha
      cases ha
    | some l =>
      rw [h] at ha
      exact ⟨⟨k, l⟩, (mem_entries_iff_lookup m.cells k l).mpr h, mem_map.mpr ⟨a, ha, rfl⟩⟩

omit [DecidableEq α] in
lemma pairs_nodup : m.pairs.Nodup := by
  unfold pairs
  rw [nodup_flatMap]
  refine ⟨fun entry hentry => ?_, ?_⟩
  · have hlookup := (mem_entries_iff_lookup m.cells entry.1 entry.2).mp hentry
    exact (m.nodup _ _ hlookup).map (Prod.mk_right_injective entry.1)
  · refine (List.Pairwise.of_map Sigma.fst (fun _ _ h => h) m.cells.keys_nodup).imp ?_
    intro x y hne p hp hq
    obtain ⟨a, -, rfl⟩ := mem_map.mp hp
    obtain ⟨b, -, heq⟩ := mem_map.mp hq
    exact hne (Prod.mk.inj heq).1.symm

end Multimap

/-! ### Groups -/

structure Grouped (η κ α : Type*) [DecidableEq η] [DecidableEq κ] where
  groups : Map η (Multimap κ α)
  nonempty : ∀ h m, groups.lookup h = some m → m.pairs ≠ []

namespace Grouped
variable (g : Grouped η κ α) (h i : η) (k j : κ) (a b : α)

def group : Multimap κ α := (g.groups.lookup h).getD Multimap.empty

def empty : Grouped η κ α where
  groups := ∅
  nonempty _ _ h := nomatch h

def put (m : Multimap κ α) : Grouped η κ α where
  groups := if m.pairs.isEmpty then g.groups.erase h else g.groups.insert h m
  nonempty i m' hi := by
    rw [lookup_replace] at hi
    split_ifs at hi with hh hempty
    · cases hi
      exact fun hnil => hempty (isEmpty_iff.mpr hnil)
    · exact g.nonempty i m' hi

omit [DecidableEq α] in
lemma mem_group_put (m : Multimap κ α) :
    a ∈ ((g.put h m).group i).values k ↔
      if i = h then a ∈ m.values k else a ∈ (g.group i).values k := by
  unfold group put
  dsimp only
  rw [lookup_replace]
  split_ifs with hi hempty
  · rw [← m.mem_pairs, isEmpty_iff.mp hempty]
    exact ⟨nofun, nofun⟩
  · rfl
  · rfl

def add : Grouped η κ α := g.put h ((g.group h).add k a)

def remove : Grouped η κ α := g.put h ((g.group h).remove k a)

/-- A whole group is removed. -/
def drop : Grouped η κ α := g.put h Multimap.empty

lemma mem_group_add : b ∈ ((g.add h k a).group i).values j ↔
    (i = h ∧ j = k ∧ b = a) ∨ b ∈ (g.group i).values j := by
  unfold add
  rw [mem_group_put]
  split_ifs with hi
  · subst hi
    rw [Multimap.mem_values_add]
    exact or_congr_left ⟨fun hand => ⟨rfl, hand⟩, fun hand => hand.2⟩
  · exact ⟨.inr, fun hmem => hmem.resolve_left fun hand => hi hand.1⟩

lemma mem_group_remove : b ∈ ((g.remove h k a).group i).values j ↔
    b ∈ (g.group i).values j ∧ ¬(i = h ∧ j = k ∧ b = a) := by
  unfold remove
  rw [mem_group_put]
  split_ifs with hi
  · subst hi
    rw [Multimap.mem_values_remove]
    exact and_congr_right fun _ => ⟨fun hne hand => hne hand.2, fun hne hand => hne ⟨rfl, hand⟩⟩
  · exact ⟨fun hmem => ⟨hmem, fun hand => hi hand.1⟩, fun hmem => hmem.1⟩

omit [DecidableEq α] in
lemma mem_group_drop : b ∈ ((g.drop h).group i).values j ↔ b ∈ (g.group i).values j ∧ i ≠ h := by
  unfold drop
  rw [mem_group_put]
  split_ifs with hi
  · exact ⟨nofun, fun hmem => absurd hi hmem.2⟩
  · exact (and_iff_left hi).symm

end Grouped
end GoAkt.FiniteMaps
