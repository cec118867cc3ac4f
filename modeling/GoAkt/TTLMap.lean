import GoAkt.FiniteMaps

/-!
# The expiring map

`TTLMap` keeps its entries inline in one slice, in the order of their insertion, and an
index from keys to positions of the slice. Expired entries are dropped lazily: from the
front when something is stored, and singly when a lookup meets one, which leaves a hole
in the slice. Now and then the slice is compacted.

The readings of the clock are arguments. What a map means to its clients is `entry`, the
entry stored for a key: storing puts a fresh one and can drop expired ones, and nothing
else changes.
-/
namespace GoAkt.XSync
open GoAkt.FiniteMaps List

structure TtlEntry (κ ν : Type*) where
  key : κ
  value : ν
  expireAt : ℤ

/-- The fields of the map. The dead prefix of `order` ends at `head`. -/
structure Slots (κ ν : Type*) where
  ttl : ℤ
  items : Map κ ℕ
  order : List (TtlEntry κ ν)
  head : ℕ

namespace Slots
variable {κ ν : Type*} [DecidableEq κ]

/-- The entry that the index names for a key. -/
def entry (m : Slots κ ν) (k : κ) : Option (TtlEntry κ ν) :=
  (m.items.lookup k).bind fun idx => m.order[idx]?

/-- A mapped key has its entry in the slice, behind the dead prefix. -/
structure Sound (m : Slots κ ν) : Prop where
  head_le : m.head ≤ m.order.length
  mapped : ∀ k i, m.items.lookup k = some i → m.head ≤ i ∧ ∃ e, m.order[i]? = some e ∧ e.key = k

/-- The loop of `evict` over the entries from the head on. -/
def evictLoop (now : ℤ) : Map κ ℕ → ℕ → List (TtlEntry κ ν) → Map κ ℕ × ℕ
  | items, head, [] => (items, head)
  | items, head, e :: rest =>
    if now < e.expireAt then (items, head)
    else evictLoop now (if items.lookup e.key = some head then items.erase e.key else items)
      (head + 1) rest

def evict (m : Slots κ ν) (now : ℤ) : Slots κ ν :=
  let left := evictLoop now m.items m.head (m.order.drop m.head)
  { m with items := left.1, head := left.2 }

/-- The slots behind the dead prefix that are still mapped. -/
def live (m : Slots κ ν) : List (TtlEntry κ ν × ℕ) :=
  ((m.order.drop m.head).zipIdx m.head).filter fun slot =>
    m.items.lookup slot.1.key = some slot.2

variable (items : Map κ ℕ) (order : List (TtlEntry κ ν))

def reindex : Map κ ℕ := order.zipIdx.foldl (fun acc slot => acc.insert slot.1.key slot.2) items

def maybeCompact (m : Slots κ ν) : Slots κ ν :=
  if m.head = 0 ∨ m.head < m.order.length / 2 then m
  else
    -- as many keys as slots: there are no holes, and the region is moved as a whole
    let order := if m.items.keys.length = m.order.length - m.head then m.order.drop m.head
      else m.live.map Prod.fst
    { m with order, items := reindex m.items order, head := 0 }

/-- The entry of a mapped key is refreshed in place, a new one is appended. -/
def store (m : Slots κ ν) (now : ℤ) (k : κ) (v : ν) : Slots κ ν :=
  match m.items.lookup k with
  | some idx => { m with order := m.order.set idx ⟨k, v, now + m.ttl⟩ }
  | none =>
    { m with
      items := m.items.insert k m.order.length
      order := m.order ++ [⟨k, v, now + m.ttl⟩] }

def set (m : Slots κ ν) (now : ℤ) (k : κ) (v : ν) : Slots κ ν :=
  ((m.store now k v).evict now).maybeCompact

def get (m : Slots κ ν) (now : ℤ) (k : κ) : Option ν × Slots κ ν :=
  match m.entry k with
  | some e =>
    if now < e.expireAt then (some e.value, m) else (none, { m with items := m.items.erase k })
  | none => (none, m)

variable {m : Slots κ ν} {e : TtlEntry κ ν} {k : κ}

lemma entry_eq_some :
    m.entry k = some e ↔ ∃ i, m.items.lookup k = some i ∧ m.order[i]? = some e :=
  Option.bind_eq_some_iff

variable {i : ℕ}

lemma Sound.index_unique (h : m.Sound) {k k' : κ}
    (hk : m.items.lookup k = some i) (hk' : m.items.lookup k' = some i) : k = k' := by
  obtain ⟨-, e, he, hkey⟩ := h.mapped k i hk
  obtain ⟨-, e', he', hkey'⟩ := h.mapped k' i hk'
  rw [he] at he'
  cases he'
  exact hkey.symm.trans hkey'

/-! ### Eviction -/

lemma evictLoop_spec (now : ℤ) (order rest : List (TtlEntry κ ν)) (items : Map κ ℕ) (head : ℕ)
    (hrest : order.drop head = rest)
    (hmapped : ∀ k i, items.lookup k = some i → head ≤ i ∧ ∃ e, order[i]? = some e ∧ e.key = k) :
    (evictLoop now items head rest).2 ≤ head + rest.length ∧
    (∀ k i, (evictLoop now items head rest).1.lookup k = some i →
      items.lookup k = some i ∧ (evictLoop now items head rest).2 ≤ i) ∧
    (∀ k i e, items.lookup k = some i → order[i]? = some e → now < e.expireAt →
      (evictLoop now items head rest).1.lookup k = some i) := by
  induction rest generalizing items head with
  | nil => exact ⟨le_rfl, fun k i hk => ⟨hk, (hmapped k i hk).1⟩, fun k i e hk _ _ => hk⟩
  | cons e rest ih =>
    have hat : order[head]? = some e := by
      rw [← head?_drop, hrest, head?_cons]
    have hdrop : order.drop (head + 1) = rest := by
      rw [← tail_drop, hrest, tail_cons]
    unfold evictLoop
    by_cases hlive : now < e.expireAt
    · rw [if_pos hlive]
      exact ⟨by omega, fun k i hk => ⟨hk, (hmapped k i hk).1⟩, fun k i e hk _ _ => hk⟩
    rw [if_neg hlive]
    -- the slot at the head is dropped: only its own mapping can go
    have hkept : ∀ k i, (if items.lookup e.key = some head then items.erase e.key
        else items).lookup k = some i ↔ items.lookup k = some i ∧ i ≠ head := by
      intro k i
      split_ifs with hown
      · rw [lookup_erase_ite]
        split_ifs with hk
        · subst hk
          rw [hown]
          simp only [Option.some.injEq, false_iff, not_and, not_not]
          exact Eq.symm
        · refine ⟨fun hi => ⟨hi, ?_⟩, And.left⟩
          rintro rfl
          obtain ⟨-, e', he', hkey⟩ := hmapped k i hi
          rw [hat] at he'
          cases he'
          exact hk hkey.symm
      · refine ⟨fun hi => ⟨hi, ?_⟩, And.left⟩
        rintro rfl
        obtain ⟨-, e', he', hkey⟩ := hmapped k i hi
        rw [hat] at he'
        cases he'
        exact hown (hkey ▸ hi)
    obtain ⟨hle, hsub, hkeep⟩ := ih _ (head + 1) hdrop (fun k i hk => by
      obtain ⟨hi, hne⟩ := (hkept k i).mp hk
      obtain ⟨hhead, hentry⟩ := hmapped k i hi
      exact ⟨by omega, hentry⟩)
    refine ⟨?_, fun k i hk => ?_, fun k i e' hk he' hnow => ?_⟩
    · simp only [length_cons]
      omega
    · obtain ⟨hi, hhead⟩ := hsub k i hk
      exact ⟨((hkept k i).mp hi).1, hhead⟩
    · refine hkeep k i e' ((hkept k i).mpr ⟨hk, ?_⟩) he' hnow
      rintro rfl
      rw [hat] at he'
      cases he'
      exact hlive hnow

lemma Sound.evict (h : m.Sound) (now : ℤ) : (m.evict now).Sound := by
  obtain ⟨hle, hsub, -⟩ := evictLoop_spec now m.order _ m.items m.head rfl h.mapped
  refine ⟨?_, fun k i hk => ⟨(hsub k i hk).2, (h.mapped k i (hsub k i hk).1).2⟩⟩
  have hhead := h.head_le
  rw [length_drop, Nat.add_sub_cancel' hhead] at hle
  exact hle

lemma Sound.entry_of_evict (h : m.Sound) {now : ℤ}
    (he : (m.evict now).entry k = some e) : m.entry k = some e := by
  obtain ⟨i, hi, hat⟩ := entry_eq_some.mp he
  obtain ⟨-, hsub, -⟩ := evictLoop_spec now m.order _ m.items m.head rfl h.mapped
  exact entry_eq_some.mpr ⟨i, (hsub k i hi).1, hat⟩

lemma Sound.entry_evict (h : m.Sound) {now : ℤ}
    (he : m.entry k = some e) (hnow : now < e.expireAt) : (m.evict now).entry k = some e := by
  obtain ⟨i, hi, hat⟩ := entry_eq_some.mp he
  obtain ⟨-, -, hkeep⟩ := evictLoop_spec now m.order _ m.items m.head rfl h.mapped
  exact entry_eq_some.mpr ⟨i, hkeep k i e hi hat hnow, hat⟩

/-! ### Compaction -/

lemma mem_live :
    (e, i) ∈ m.live ↔ m.head ≤ i ∧ m.order[i]? = some e ∧ m.items.lookup e.key = some i := by
  rw [live, mem_filter, mem_zipIdx_iff_le_and_getElem?_sub, getElem?_drop,
    decide_eq_true_iff, and_assoc]
  refine and_congr_right fun hle => ?_
  rw [Nat.add_sub_cancel' hle]

lemma nodup_live_keys (m : Slots κ ν) : (m.live.map fun slot => slot.1.key).Nodup := by
  have hslots : m.live.Nodup := by
    refine List.Nodup.filter _ (List.Nodup.of_map Prod.snd ?_)
    rw [zipIdx_map_snd]
    exact nodup_range'
  refine hslots.map_on ?_
  rintro ⟨e, i⟩ hi ⟨e', i'⟩ hi' (hkey : e.key = e'.key)
  obtain ⟨-, hat, hown⟩ := mem_live.mp hi
  obtain ⟨-, hat', hown'⟩ := mem_live.mp hi'
  rw [hkey, hown'] at hown
  cases hown
  rw [hat] at hat'
  cases hat'
  rfl

/-- As many keys as slots behind the head: every slot is mapped. -/
lemma Sound.live_of_full (h : m.Sound) (hfull : m.items.keys.length = m.order.length - m.head) :
    m.live.map Prod.fst = m.order.drop m.head := by
  have hindex : ∀ k ∈ m.items.keys, ∃ i, m.items.lookup k = some i := fun k hk =>
    (mem_keys_iff_lookup m.items k).mp hk
  -- the index is an injection of the keys into the positions behind the head
  have hrange : (m.items.keys.toFinset.image fun k => (m.items.lookup k).getD 0) =
      Finset.Ico m.head m.order.length := by
    refine Finset.eq_of_subset_of_card_le ?_ ?_
    · intro i hi
      obtain ⟨k, hk, rfl⟩ := Finset.mem_image.mp hi
      obtain ⟨i, hi⟩ := hindex k (mem_toFinset.mp hk)
      obtain ⟨hhead, e, hat, -⟩ := h.mapped k i hi
      rw [hi, Option.getD_some]
      exact Finset.mem_Ico.mpr ⟨hhead, (List.getElem?_eq_some_iff.mp hat).1⟩
    · rw [Nat.card_Ico, Finset.card_image_of_injOn, toFinset_card_of_nodup m.items.keys_nodup,
        hfull]
      intro k hk k' hk' heq
      obtain ⟨i, hi⟩ := hindex k (mem_toFinset.mp hk)
      obtain ⟨i', hi'⟩ := hindex k' (mem_toFinset.mp hk')
      simp only [hi, hi', Option.getD_some] at heq
      subst heq
      exact h.index_unique hi hi'
  have hall : m.live = (m.order.drop m.head).zipIdx m.head := by
    refine filter_eq_self.mpr fun slot hslot => ?_
    obtain ⟨e, i⟩ := slot
    obtain ⟨hle, hat⟩ := mem_zipIdx_iff_le_and_getElem?_sub.mp hslot
    rw [getElem?_drop, Nat.add_sub_cancel' hle] at hat
    have hmem : i ∈ Finset.Ico m.head m.order.length :=
      Finset.mem_Ico.mpr ⟨hle, (List.getElem?_eq_some_iff.mp hat).1⟩
    rw [← hrange] at hmem
    obtain ⟨k, hk, hki⟩ := Finset.mem_image.mp hmem
    obtain ⟨j, hj⟩ := hindex k (mem_toFinset.mp hk)
    rw [hj, Option.getD_some] at hki
    subst hki
    obtain ⟨-, e', hat', hkey⟩ := h.mapped k j hj
    rw [hat] at hat'
    cases hat'
    rw [decide_eq_true_iff, hkey]
    exact hj
  rw [hall, zipIdx_map_fst]

lemma lookup_reindex (hnodup : (order.map TtlEntry.key).Nodup) :
    (∀ i e, order[i]? = some e → (reindex items order).lookup e.key = some i) ∧
    (∀ k, k ∉ order.map TtlEntry.key → (reindex items order).lookup k = items.lookup k) := by
  induction order using reverseRecOn with
  | nil => exact ⟨fun i e he => by simp at he, fun k _ => rfl⟩
  | append_singleton order e ih =>
    rw [map_append, nodup_append] at hnodup
    obtain ⟨hfirst, -, hfresh⟩ := hnodup
    obtain ⟨hin, hout⟩ := ih hfirst
    have hreindex : reindex items (order ++ [e]) =
        (reindex items order).insert e.key order.length := by
      simp [reindex, zipIdx_append]
    rw [hreindex]
    constructor
    · intro i e' he'
      by_cases hi : i < order.length
      · rw [getElem?_append_left hi] at he'
        have hmem : e'.key ∈ order.map TtlEntry.key := mem_map_of_mem (mem_of_getElem? he')
        rw [lookup_insert_ite, if_neg (hfresh _ hmem _ (mem_singleton_self _))]
        exact hin i e' he'
      · rw [getElem?_append_right (not_lt.mp hi), getElem?_singleton] at he'
        split_ifs at he' with hlast
        cases he'
        rw [AList.lookup_insert]
        exact congrArg some (by omega)
    · intro k hk
      rw [map_append, mem_append, not_or] at hk
      rw [lookup_insert_ite, if_neg (by simpa using hk.2)]
      exact hout k hk.1

lemma Sound.mem_live (h : m.Sound)
    (hi : m.items.lookup k = some i) : ∃ e, (e, i) ∈ m.live ∧ m.order[i]? = some e ∧ e.key = k := by
  obtain ⟨hhead, e, hat, hkey⟩ := h.mapped k i hi
  exact ⟨e, Slots.mem_live.mpr ⟨hhead, hat, hkey.symm ▸ hi⟩, hat, hkey⟩

/-- Moving the live slots to the front loses no entry and brings none back. -/
lemma Sound.compacted (h : m.Sound) : let m' : Slots κ ν :=
      { m with
        order := m.live.map Prod.fst
        items := reindex m.items (m.live.map Prod.fst)
        head := 0 }
    m'.Sound ∧ ∀ k, m'.entry k = m.entry k := by
  intro m'
  have hnodup : ((m.live.map Prod.fst).map TtlEntry.key).Nodup := by
    rw [map_map]
    exact m.nodup_live_keys
  obtain ⟨hin, hout⟩ := lookup_reindex m.items (m.live.map Prod.fst) hnodup
  have hlive : ∀ k, k ∈ (m.live.map Prod.fst).map TtlEntry.key →
      ∃ (j : ℕ) (e : TtlEntry κ ν) (i : ℕ), (m.live.map Prod.fst)[j]? = some e ∧ e.key = k ∧
        (e, i) ∈ m.live := by
    intro k hk
    obtain ⟨e, he, rfl⟩ := mem_map.mp hk
    obtain ⟨j, hj⟩ := mem_iff_getElem?.mp he
    obtain ⟨⟨e', i⟩, hslot, rfl⟩ := mem_map.mp he
    exact ⟨j, e', i, hj, rfl, hslot⟩
  have hdead : ∀ k, k ∉ (m.live.map Prod.fst).map TtlEntry.key → m.items.lookup k = none := by
    intro k hk
    by_contra hsome
    obtain ⟨i, hi⟩ := Option.ne_none_iff_exists'.mp hsome
    obtain ⟨e, hslot, -, rfl⟩ := h.mem_live hi
    exact hk (mem_map_of_mem (mem_map_of_mem hslot))
  constructor
  · refine ⟨Nat.zero_le _, fun k j hj => ⟨Nat.zero_le _, ?_⟩⟩
    by_cases hk : k ∈ (m.live.map Prod.fst).map TtlEntry.key
    · obtain ⟨j', e, -, hat, rfl, -⟩ := hlive k hk
      have hj' := hin j' e hat
      cases hj.symm.trans hj'
      exact ⟨e, hat, rfl⟩
    · exact nomatch (hj.symm.trans (hout k hk)).trans (hdead k hk)
  · intro k
    by_cases hk : k ∈ (m.live.map Prod.fst).map TtlEntry.key
    · obtain ⟨j, e, i, hat, rfl, hslot⟩ := hlive k hk
      obtain ⟨-, hold, hown⟩ := Slots.mem_live.mp hslot
      rw [entry_eq_some.mpr ⟨i, hown, hold⟩]
      exact entry_eq_some.mpr ⟨j, hin j e hat, hat⟩
    · have hnone : m'.items.lookup k = none := (hout k hk).trans (hdead k hk)
      rw [entry, entry, hnone, hdead k hk]
      rfl

lemma Sound.maybeCompact (h : m.Sound) :
    m.maybeCompact.Sound ∧ ∀ k, m.maybeCompact.entry k = m.entry k := by
  unfold Slots.maybeCompact
  by_cases hearly : m.head = 0 ∨ m.head < m.order.length / 2
  · rw [if_pos hearly]
    exact ⟨h, fun _ => rfl⟩
  rw [if_neg hearly]
  by_cases hfull : m.items.keys.length = m.order.length - m.head
  · rw [if_pos hfull, ← h.live_of_full hfull]
    exact h.compacted
  · rw [if_neg hfull]
    exact h.compacted

/-! ### Storing and reading -/

lemma ttl_maybeCompact (m : Slots κ ν) : m.maybeCompact.ttl = m.ttl := by
  unfold maybeCompact
  split_ifs <;> rfl

lemma Sound.store (h : m.Sound) (now : ℤ) (k : κ) (v : ν) : (m.store now k v).Sound ∧
    ∀ k', (m.store now k v).entry k' = if k' = k then some ⟨k, v, now + m.ttl⟩ else m.entry k' := by
  unfold Slots.store
  cases hk : m.items.lookup k with
  | some idx =>
    obtain ⟨hhead, e, hat, hkey⟩ := h.mapped k idx hk
    have hlt := (List.getElem?_eq_some_iff.mp hat).1
    constructor
    · refine ⟨by simpa using h.head_le, fun k' i hi => ?_⟩
      obtain ⟨hhead', e', hat', hkey'⟩ := h.mapped k' i hi
      refine ⟨hhead', ?_⟩
      by_cases heq : idx = i
      · subst heq
        exact ⟨_, getElem?_set_self hlt, h.index_unique hk hi⟩
      · exact ⟨e', by rw [getElem?_set_ne heq]; exact hat', hkey'⟩
    · intro k'
      split_ifs with heq
      · subst heq
        exact entry_eq_some.mpr ⟨idx, hk, getElem?_set_self hlt⟩
      · unfold entry
        refine Option.bind_congr fun i hi => ?_
        rw [getElem?_set_ne]
        rintro rfl
        exact heq (h.index_unique hi hk)
  | none =>
    constructor
    · refine ⟨?_, fun k' i hi => ?_⟩
      · rw [length_append]
        exact h.head_le.trans (Nat.le_add_right _ _)
      · rw [lookup_insert_ite] at hi
        split_ifs at hi with heq
        · cases hi
          exact ⟨h.head_le, _, getElem?_concat_length, heq.symm⟩
        · obtain ⟨hhead, e, hat, hkey⟩ := h.mapped k' i hi
          have hlt := (List.getElem?_eq_some_iff.mp hat).1
          exact ⟨hhead, e, by rw [getElem?_append_left hlt]; exact hat, hkey⟩
    · intro k'
      unfold entry
      rw [lookup_insert_ite]
      split_ifs with heq
      · exact getElem?_concat_length
      · refine Option.bind_congr fun i hi => ?_
        obtain ⟨-, e, hat, -⟩ := h.mapped k' i hi
        exact List.getElem?_append_left (List.getElem?_eq_some_iff.mp hat).1

lemma Sound.set (h : m.Sound) (now : ℤ) (k : κ) (v : ν) : (m.set now k v).Sound :=
  ((h.store now k v).1.evict now).maybeCompact.1

lemma Sound.get (h : m.Sound) (now : ℤ) (k : κ) : (m.get now k).2.Sound := by
  unfold Slots.get
  split
  · split_ifs
    · exact h
    · refine ⟨h.head_le, fun k' i hi => ?_⟩
      rw [lookup_erase_ite] at hi
      split_ifs at hi
      exact h.mapped k' i hi
  · exact h

end Slots

/-- The expiring map: fields among which every mapped key has its entry. -/
structure TTLMap (κ ν : Type*) [DecidableEq κ] where
  slots : Slots κ ν
  sound : slots.Sound

namespace TTLMap
variable {κ ν : Type*} [DecidableEq κ]

def new (ttl : ℤ) : TTLMap κ ν where
  slots := ⟨ttl, ∅, [], 0⟩
  sound := ⟨le_rfl, fun k i hi => by simp at hi⟩

def ttl (m : TTLMap κ ν) : ℤ := m.slots.ttl

def entry (m : TTLMap κ ν) (k : κ) : Option (TtlEntry κ ν) := m.slots.entry k

def set (m : TTLMap κ ν) (now : ℤ) (k : κ) (v : ν) : TTLMap κ ν :=
  ⟨m.slots.set now k v, m.sound.set now k v⟩

def get (m : TTLMap κ ν) (now : ℤ) (k : κ) : Option ν × TTLMap κ ν :=
  ((m.slots.get now k).1, ⟨(m.slots.get now k).2, m.sound.get now k⟩)

@[simp] lemma ttl_set (m : TTLMap κ ν) (now : ℤ) (k : κ) (v : ν) : (m.set now k v).ttl = m.ttl := by
  change (m.slots.set now k v).ttl = m.slots.ttl
  rw [Slots.set, Slots.ttl_maybeCompact]
  unfold Slots.store
  split <;> rfl

@[simp] lemma ttl_get (m : TTLMap κ ν) (now : ℤ) (k : κ) : (m.get now k).2.ttl = m.ttl := by
  simp only [ttl, get, Slots.get]
  split
  · split_ifs <;> rfl
  · rfl

variable {now : ℤ}

/-- What is found after storing was just stored or was there before. -/
lemma entry_of_set {m : TTLMap κ ν} {k k' : κ} {v : ν} {e : TtlEntry κ ν}
    (he : (m.set now k v).entry k' = some e) :
    (k' = k ∧ e = ⟨k, v, now + m.ttl⟩) ∨ k' ≠ k ∧ m.entry k' = some e := by
  obtain ⟨hsound, hstore⟩ := m.sound.store now k v
  have hevicted : ((m.slots.store now k v).evict now).entry k' = some e :=
    ((hsound.evict now).maybeCompact.2 k').symm.trans he
  have hstored := hsound.entry_of_evict hevicted
  rw [hstore] at hstored
  split_ifs at hstored with hk
  · cases hstored
    exact .inl ⟨hk, rfl⟩
  · exact .inr ⟨hk, hstored⟩

/-- Storing keeps the entries that have not expired. -/
lemma entry_set_of_live {m : TTLMap κ ν} {k k' : κ} (v : ν) {e : TtlEntry κ ν}
    (hne : k' ≠ k) (he : m.entry k' = some e) (hnow : now < e.expireAt) :
    (m.set now k v).entry k' = some e := by
  obtain ⟨hsound, hstore⟩ := m.sound.store now k v
  refine ((hsound.evict now).maybeCompact.2 k').trans (hsound.entry_evict ?_ hnow)
  rw [hstore, if_neg hne]
  exact he

lemma entry_set_self (m : TTLMap κ ν) (k : κ) (v : ν) (httl : 0 < m.ttl) :
    (m.set now k v).entry k = some ⟨k, v, now + m.ttl⟩ := by
  obtain ⟨hsound, hstore⟩ := m.sound.store now k v
  refine ((hsound.evict now).maybeCompact.2 k).trans (hsound.entry_evict ?_ ?_)
  · rw [hstore, if_pos rfl]
    rfl
  · exact Int.lt_add_of_pos_right now httl

/-- A lookup finds exactly the entries that have not expired. -/
lemma get_eq (m : TTLMap κ ν) (now : ℤ) (k : κ) :
    (m.get now k).1 =
      (m.entry k).bind fun e => if now < e.expireAt then some e.value else none := by
  simp only [get, Slots.get, entry]
  cases m.slots.entry k with
  | none => rfl
  | some e =>
    dsimp only [Option.bind_some]
    split_ifs <;> rfl

/-- A lookup removes the expired entry it meets, and nothing else. -/
lemma entry_get (m : TTLMap κ ν) (now : ℤ) (k k' : κ) :
    (m.get now k).2.entry k' = m.entry k' ∨
      (k' = k ∧ (m.get now k).2.entry k' = none ∧ ∃ e, m.entry k = some e ∧ e.expireAt ≤ now) := by
  change (m.slots.get now k).2.entry k' = m.slots.entry k' ∨
    (k' = k ∧ (m.slots.get now k).2.entry k' = none ∧
      ∃ e, m.slots.entry k = some e ∧ e.expireAt ≤ now)
  unfold Slots.get
  cases he : m.slots.entry k with
  | none => exact .inl rfl
  | some e =>
    dsimp only
    by_cases hnow : now < e.expireAt
    · rw [if_pos hnow]
      exact .inl rfl
    · rw [if_neg hnow]
      by_cases hk : k' = k
      · subst hk
        refine .inr ⟨rfl, ?_, e, rfl, not_lt.mp hnow⟩
        rw [Slots.entry, AList.lookup_erase]
        rfl
      · refine .inl ?_
        rw [Slots.entry, Slots.entry, AList.lookup_erase_ne hk]

/-- `Set` as int64 computes the deadline. What is stored expires `ttl` after its time. -/
def setWrapped (m : TTLMap κ ν) (now : ℤ) (k : κ) (v : ν) : TTLMap κ ν where
  slots := ((m.slots.store ((now + m.ttl).bmod (2 ^ 64) - m.ttl) k v).evict now).maybeCompact
  sound := ((m.sound.store _ k v).1.evict now).maybeCompact.1

def len (m : TTLMap κ ν) : ℕ := m.slots.items.keys.length

def reset (m : TTLMap κ ν) : TTLMap κ ν := new m.ttl

end TTLMap

/-! ### Runs -/

inductive TtlCall (κ ν : Type*)
  | set (k : κ) (v : ν)
  | get (k : κ)
  | len
  | reset

/-- The map, and the last value of each key since the last `Reset` with the time of its `Set`. -/
structure TtlRun (κ ν : Type*) [DecidableEq κ] where
  map : TTLMap κ ν
  stored : κ → Option (ν × ℤ)

namespace TtlRun
variable {κ ν : Type*} [DecidableEq κ]

def call (s : TtlRun κ ν) : ℤ × TtlCall κ ν → TtlRun κ ν
  | (now, .set k v) => ⟨s.map.setWrapped now k v, Function.update s.stored k (some (v, now))⟩
  | (now, .get k) => ⟨(s.map.get now k).2, s.stored⟩
  | (_, .len) => s
  | (_, .reset) => ⟨s.map.reset, fun _ => none⟩

/-- A new map after calls at some times. -/
def after (ttl : ℤ) (calls : List (ℤ × TtlCall κ ν)) : TtlRun κ ν :=
  calls.foldl call ⟨.new ttl, fun _ => none⟩

/-- What is found was stored last, and what was stored last is found until it expires. -/
structure Mirrors (ttl now : ℤ) (s : TtlRun κ ν) : Prop where
  found : ∀ k e, s.map.entry k = some e → ∃ t, s.stored k = some (e.value, t) ∧ e.expireAt = t + ttl
  kept : ∀ k v t, s.stored k = some (v, t) → now < t + ttl → s.map.entry k = some ⟨k, v, t + ttl⟩
  ttl_eq : s.map.ttl = ttl

variable {ttl now : ℤ} {s : TtlRun κ ν}

section
variable (h : Mirrors ttl now s) (hlow : -2 ^ 63 ≤ now + ttl) (hhigh : now + ttl < 2 ^ 63)
include h hlow hhigh

lemma mirrors_set (k : κ) (v : ν) : Mirrors ttl now (s.call (now, .set k v)) := by
  have hwrap : s.map.setWrapped now k v = s.map.set now k v := by
    have hdeadline : (now + s.map.ttl).bmod (2 ^ 64) = now + s.map.ttl := by
      rw [h.ttl_eq, Int.bmod_eq_of_le (by simp; omega) (by simp; omega)]
    simp only [TTLMap.setWrapped, TTLMap.set, Slots.set, hdeadline, Int.add_sub_cancel]
  simp only [call, hwrap]
  refine ⟨fun k' e he => ?_, fun k' v' t ht hlive => ?_, by rw [TTLMap.ttl_set, h.ttl_eq]⟩ <;>
    dsimp only at *
  · rcases TTLMap.entry_of_set he with ⟨rfl, rfl⟩ | ⟨hk, he⟩
    · exact ⟨now, Function.update_self .., by rw [h.ttl_eq]⟩
    · rw [Function.update_of_ne hk]
      exact h.found k' e he
  · by_cases hk : k' = k
    · subst hk
      rw [Function.update_self] at ht
      cases ht
      rw [← h.ttl_eq] at hlive ⊢
      exact s.map.entry_set_self k' v (by omega)
    · rw [Function.update_of_ne hk] at ht
      exact TTLMap.entry_set_of_live v hk (h.kept k' v' t ht hlive) hlive

end

lemma mirrors_call (h : Mirrors ttl now s) (c : TtlCall κ ν)
    (hfit : ∀ k v, c = .set k v → -2 ^ 63 ≤ now + ttl ∧ now + ttl < 2 ^ 63) :
    Mirrors ttl now (s.call (now, c)) := by
  cases c with
  | set k v =>
    obtain ⟨hlow, hhigh⟩ := hfit k v rfl
    exact mirrors_set h hlow hhigh k v
  | get k =>
    refine ⟨fun k' e he => ?_, fun k' v t ht hlive => ?_, (TTLMap.ttl_get ..).trans h.ttl_eq⟩
    · rcases s.map.entry_get now k k' with heq | ⟨-, hnone, -⟩
      · exact h.found k' e (heq ▸ he)
      · exact nomatch he.symm.trans hnone
    · have hentry := h.kept k' v t ht hlive
      rcases s.map.entry_get now k k' with heq | ⟨rfl, -, e, he, hexpired⟩
      · exact heq.trans hentry
      · cases hentry.symm.trans he
        exact absurd hexpired (not_le.mpr hlive)
  | len => exact h
  | reset => exact ⟨nofun, nofun, h.ttl_eq⟩

/-- After any calls at times that do not decrease, if no deadline wraps around: `Get` finds what was
stored last if it has not expired, every mapped key has its slot behind the dead prefix, and
evicting and compacting drop no entry that is alive and bring none back. -/
theorem get_eq_stored (ttl now : ℤ) (calls : List (ℤ × TtlCall κ ν)) (k : κ)
    (hclock : (calls.map Prod.fst ++ [now]).Pairwise (· ≤ ·))
    (hfit : ∀ t k v, (t, .set k v) ∈ calls → -2 ^ 63 ≤ t + ttl ∧ t + ttl < 2 ^ 63) :
    let s := after ttl calls
    (s.map.get now k).1 = ((s.stored k).bind fun (v, t) => if now < t + ttl then some v else none) ∧
    s.map.slots.Sound ∧
    ∀ e, ((s.map.slots.evict now).maybeCompact.entry k = some e → s.map.entry k = some e) ∧
      (s.map.entry k = some e → now < e.expireAt →
        (s.map.slots.evict now).maybeCompact.entry k = some e) := by
  intro s
  have h : Mirrors ttl now s := by
    clear k
    induction calls using reverseRecOn generalizing now with
    | nil => exact ⟨nofun, nofun, rfl⟩
    | append_singleton calls c ih =>
      rw [map_append, pairwise_append] at hclock
      have hbefore := ih c.1 hclock.1 fun t k v hmem => hfit t k v (mem_append_left _ hmem)
      have hc := mirrors_call hbefore c.2 fun k v hset =>
        hfit c.1 k v (mem_append_right _ (mem_singleton.mpr (Prod.ext rfl hset.symm)))
      have hle : c.1 ≤ now := hclock.2.2 _ (by simp) _ (by simp)
      simp only [s, after, foldl_append]
      exact ⟨hc.found, fun k v t ht hlive => hc.kept k v t ht (hle.trans_lt hlive), hc.ttl_eq⟩
  have hsound := s.map.sound
  refine ⟨?_, hsound, fun e => ?_⟩
  · rw [TTLMap.get_eq]
    cases hstored : s.stored k with
    | none =>
      cases he : s.map.entry k with
      | none => rfl
      | some e =>
        obtain ⟨t, ht, -⟩ := h.found k e he
        exact nomatch hstored.symm.trans ht
    | some last =>
      obtain ⟨v, t⟩ := last
      by_cases hlive : now < t + ttl
      · simp [h.kept k v t hstored hlive, hlive]
      · cases he : s.map.entry k with
        | none => simp [hlive]
        | some e =>
          obtain ⟨t', ht, hexpire⟩ := h.found k e he
          cases hstored.symm.trans ht
          simp [hexpire, hlive]
  · rw [(hsound.evict now).maybeCompact.2]
    exact ⟨hsound.entry_of_evict, hsound.entry_evict⟩

theorem get_eq_stored_again :
    ((after 10 [(0, .set 1 5), (9, .set 1 7)] : TtlRun ℕ ℕ).map.get 18 1).1 = some 7 :=
  (get_eq_stored 10 18 [(0, .set 1 5), (9, .set 1 7)] 1 (by decide) (by simp; omega)).1

/-- With the largest int64 as ttl the deadline wraps around and nothing is found. -/
theorem nothing_stored : ((after 9223372036854775807 [(1, .set 1 5)] : TtlRun ℕ ℕ).map.get 2 1).1 =
    none := by
  decide +kernel

end TtlRun
end GoAkt.XSync
