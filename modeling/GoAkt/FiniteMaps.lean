import Mathlib.Data.List.AList
import Mathlib.Tactic

/-!
# Finite maps and loops over them

A finite map is an association list without duplicate keys. Reads go through
`AList.lookup`, so no statement depends on the order in which the entries are
stored. Three loop shapes are enough for the programs modelled over these maps: a
loop that writes only the key it visits, a loop that fills a new map with one cell
for each key of a list, and a loop that keeps the elements of a list that pass a
test, without repeating those it already has.
-/
namespace GoAkt.FiniteMaps
open List

abbrev Map (κ μ : Type*) := AList (fun _ : κ => μ)

/-- A loop that keeps what passes a test. How `keep` avoids repetitions is left
open: on the elements that occur it must add exactly the visited one. -/
theorem mem_foldl_keep {known : κ → Prop} {test : κ → Bool} {keep : List κ → κ → List κ}
    (hkeep : ∀ kept x, (∀ y ∈ kept, known y) → known x → ∀ y, y ∈ keep kept x ↔ y ∈ kept ∨ y = x)
    (l kept : List κ) (hl : ∀ x ∈ l, known x) (hkept : ∀ x ∈ kept, known x) (y : κ) :
    y ∈ l.foldl (fun kept x => if test x then keep kept x else kept) kept ↔
      y ∈ kept ∨ (y ∈ l ∧ test y = true) := by
  induction l generalizing kept with
  | nil => simp
  | cons x l ih =>
    obtain ⟨hx, hl⟩ := forall_mem_cons.mp hl
    have hnext : ∀ z, z ∈ (if test x then keep kept x else kept) ↔
        z ∈ kept ∨ (z = x ∧ test z = true) := by
      intro z
      split_ifs with htest
      · rw [hkeep kept x hkept hx]
        exact or_congr_right ⟨fun h => ⟨h, h ▸ htest⟩, And.left⟩
      · exact ⟨.inl, fun h => h.elim id fun ⟨hz, hpass⟩ => absurd (hz ▸ hpass) htest⟩
    have hknown : ∀ z ∈ (if test x then keep kept x else kept), known z := by
      intro z hz
      rcases (hnext z).mp hz with hz | ⟨rfl, -⟩
      · exact hkept z hz
      · exact hx
    rw [foldl_cons, ih _ hl hknown, hnext, mem_cons, or_and_right, or_assoc]

variable {κ μ μ' : Type*} [DecidableEq κ] (keys : List κ) (cell : κ → Option μ) (m : Map κ μ)
  (k : κ)

lemma lookup_insert_ite (k j : κ) (v : μ) :
    (m.insert k v).lookup j = if j = k then some v else m.lookup j := by
  split_ifs with h
  · subst j
    exact AList.lookup_insert m
  · exact AList.lookup_insert_ne h

lemma lookup_erase_ite (k j : κ) : (m.erase k).lookup j = if j = k then none else m.lookup j := by
  split_ifs with h
  · subst j
    exact AList.lookup_erase k m
  · exact AList.lookup_erase_ne h

lemma mem_keys_iff_lookup : k ∈ m.keys ↔ ∃ v, m.lookup k = some v := by
  rw [← AList.mem_keys, ← AList.lookup_isSome, Option.isSome_iff_exists]

lemma mem_entries_iff_lookup (v : μ) :
    (⟨k, v⟩ : Sigma fun _ : κ => μ) ∈ m.entries ↔ m.lookup k = some v :=
  AList.mem_lookup_iff.symm

/-- Writing the pairs of a list into a map does not change the other keys. -/
lemma lookup_foldl_insert_of_notMem {ps : List (κ × μ)} {k : κ} (hk : k ∉ ps.map (·.1))
    (m : Map κ μ) : (ps.foldl (fun m p => m.insert p.1 p.2) m).lookup k = m.lookup k := by
  induction ps generalizing m with
  | nil => rfl
  | cons p ps ih =>
    simp only [map_cons, mem_cons, not_or] at hk
    rw [foldl_cons, ih hk.2, AList.lookup_insert_ne hk.1]

lemma lookup_foldl_insert {ps : List (κ × μ)} (hnodup : (ps.map (·.1)).Nodup) (m : Map κ μ)
    {k : κ} {v : μ} (hp : (k, v) ∈ ps) :
    (ps.foldl (fun m p => m.insert p.1 p.2) m).lookup k = some v := by
  induction ps generalizing m with
  | nil => cases hp
  | cons p ps ih =>
    rw [map_cons, nodup_cons] at hnodup
    rcases mem_cons.mp hp with rfl | hp
    · rw [foldl_cons, lookup_foldl_insert_of_notMem hnodup.1, AList.lookup_insert]
    · exact ih hnodup.2 _ hp

/-- A loop over the entries of `m` whose body changes only what is seen at the visited key
leaves at each key the result of its own single visit. -/
theorem view_foldl_own {σ β : Type*} (view : σ → κ → β) (step : σ → κ → μ → σ)
    (visit : κ → μ → β → β)
    (hstep : ∀ acc k v j, view (step acc k v) j =
      if j = k then visit k v (view acc k) else view acc j)
    (m : Map κ μ) (acc : σ) (j : κ) :
    view (m.foldl step acc) j =
      (m.lookup j).elim (view acc j) (fun v => visit j v (view acc j)) := by
  obtain ⟨entries, hnodup⟩ := m
  simp only [AList.foldl, AList.lookup]
  induction entries generalizing acc with
  | nil => simp
  | cons entry entries ih =>
    obtain ⟨k, v⟩ := entry
    obtain ⟨hfresh, hnodup'⟩ := nodupKeys_cons.mp hnodup
    have htail := ih (step acc k v) hnodup'
    rw [foldl_cons, htail, hstep]
    by_cases h : j = k
    · subst j
      have hnone : dlookup k entries = none := dlookup_eq_none.mpr hfresh
      simp [hnone, dlookup_cons_eq]
    · rw [dlookup_cons_ne entries ⟨k, v⟩ h]
      simp [h]

/-- A loop over the entries of `m` whose body writes only the visited key leaves
at each key the result of its own single visit. -/
theorem lookup_foldl_own (step : Map κ μ → κ → μ' → Map κ μ)
    (visit : κ → μ' → Option μ → Option μ)
    (hstep : ∀ acc k v j, (step acc k v).lookup j =
      if j = k then visit k v (acc.lookup k) else acc.lookup j)
    (m : Map κ μ') (acc : Map κ μ) (j : κ) :
    (m.foldl step acc).lookup j =
      (m.lookup j).elim (acc.lookup j) (fun v => visit j v (acc.lookup j)) :=
  view_foldl_own (fun acc j => AList.lookup j acc) step visit hstep m acc j

/-- Fill a new map by visiting the keys of a list; a key whose visit produces
nothing gets no cell. -/
def collect : Map κ μ := keys.foldl (fun acc k => (cell k).elim acc (fun v => acc.insert k v)) ∅

lemma lookup_foldl_collect (acc : Map κ μ) (j : κ) :
    (keys.foldl (fun acc k => (cell k).elim acc (fun v => acc.insert k v)) acc).lookup j =
      if j ∈ keys then (cell j).or (acc.lookup j) else acc.lookup j := by
  induction keys generalizing acc with
  | nil => simp
  | cons k keys ih =>
    rw [foldl_cons, ih]
    have hvisit : ((cell k).elim acc (fun v => acc.insert k v)).lookup j =
        if j = k then (cell j).or (acc.lookup j) else acc.lookup j := by
      by_cases h : j = k
      · subst j
        cases hc : cell k <;> simp
      · cases hc : cell k with
        | none => simp [h]
        | some v => simp [h, AList.lookup_insert_ne h]
    rw [hvisit]
    by_cases h : j = k
    · subst j
      cases cell k <;> simp
    · simp [h]

@[simp] lemma lookup_collect (j : κ) :
    (collect keys cell).lookup j = if j ∈ keys then cell j else none := by
  simp [collect, lookup_foldl_collect]

/-- A key occurs once, so filtering the entries by it finds its cell. -/
theorem filterMap_entries {μ' : Type*} (f : μ → Option μ') :
    m.entries.filterMap (fun entry => if entry.1 = k then f entry.2 else none) =
      ((m.lookup k).bind f).toList := by
  obtain ⟨entries, hnodup⟩ := m
  change entries.filterMap _ = ((dlookup k entries).bind f).toList
  induction entries with
  | nil => simp
  | cons entry entries ih =>
    obtain ⟨j, v⟩ := entry
    rw [nodupKeys_cons] at hnodup
    have hrest := ih hnodup.2
    by_cases h : j = k
    · subst h
      have hnone : dlookup j entries = none := dlookup_eq_none.mpr hnodup.1
      rw [hnone] at hrest
      cases hf : f v with
      | none | some u => simpa [dlookup_cons_eq, hf] using hrest
    · rw [dlookup_cons_ne entries ⟨j, v⟩ (Ne.symm h), ← hrest]
      simp [h]

/-- Rebuilding a map cell by cell. -/
theorem lookup_collect_keys {μ' : Type*} (f : μ → Option μ') (j : κ) :
    (collect m.keys fun k => (m.lookup k).bind f).lookup j = (m.lookup j).bind f := by
  rw [lookup_collect]
  split_ifs with h
  · rfl
  · have hnone : m.lookup j = none := by
      rw [AList.lookup_eq_none]
      exact h
    simp [hnone]

end GoAkt.FiniteMaps
