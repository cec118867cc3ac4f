import Mathlib.Data.List.GetD
import GoAkt.FiniteMaps

/-!
# The consistent hash ring of a router

Every member is placed at several points of the ring, one for each of its virtual nodes. A key
belongs to the member at the first point that is not below the hash of the key, and to the one
at the smallest point when there is none. The ring is rebuilt from the list of the members,
which the router reads from a map in any order.
-/
namespace GoAkt.Actor
open FiniteMaps List

/-- The binary search of the standard library: the first of the positions from `i` on, and
before `j`, at which `f` holds. -/
def search (f : ℕ → Bool) (i j : ℕ) : ℕ :=
  if i < j then
    let h := (i + j) / 2
    if f h then search f i h else search f (h + 1) j
  else i
termination_by j - i

lemma search_spec (f : ℕ → Bool) (i j : ℕ) (hij : i ≤ j)
    (hmono : ∀ a b, a ≤ b → b < j → f a = true → f b = true) :
    search f i j ≤ j ∧ (∀ k, i ≤ k → k < search f i j → f k = false) ∧
      (search f i j < j → f (search f i j) = true) := by
  fun_induction search f i j with
  | case1 i j hlt h hh ih =>
    have hbound : i ≤ h ∧ h < j := by omega
    obtain ⟨hle, hbelow, hat⟩ := ih hbound.1 fun a b hab hb => hmono a b hab (hb.trans hbound.2)
    refine ⟨hle.trans hbound.2.le, hbelow, fun _ => ?_⟩
    rcases hle.lt_or_eq with hs | hs
    · exact hat hs
    · rw [hs]
      exact hh
  | case2 i j hlt h hh ih =>
    have hbound : i ≤ h ∧ h + 1 ≤ j := by omega
    obtain ⟨hle, hbelow, hat⟩ := ih hbound.2 hmono
    refine ⟨hle, fun k hik hk => ?_, hat⟩
    by_cases hkh : h + 1 ≤ k
    · exact hbelow k hkh hk
    · by_contra hf
      exact hh (hmono k h (by omega) (by omega) (by simpa using hf))
  | case3 i j hlt => exact ⟨hij, fun k hik hk => by omega, fun hlt' => absurd hlt' hlt⟩

/-- The points of the ring. -/
abbrev HashCode := Fin (2 ^ 64)

/-- The hasher is applied to the bytes of a text. -/
structure ConsistentHashRing where
  hasher : String → HashCode
  virtualNodes : ℕ
  keys : List HashCode
  ring : Map HashCode String

def defaultVirtualNodes : ℕ := 150

def newConsistentHashRing (hasher : String → HashCode) (virtualNodes : ℤ) : ConsistentHashRing where
  hasher := hasher
  virtualNodes := if virtualNodes ≤ 0 then defaultVirtualNodes else virtualNodes.toNat
  keys := []
  ring := ∅

namespace ConsistentHashRing
variable (r : ConsistentHashRing)

def hashVNode (member : String) (index : ℕ) : HashCode := r.hasher (member ++ "#" ++ toString index)

/-- The ring is rebuilt. Nothing of the earlier one is left. -/
def set (members : List String) : ConsistentHashRing :=
  let built := members.foldl (fun built member =>
    (List.range r.virtualNodes).foldl (fun built i =>
      let h := r.hashVNode member i
      (built.1.insert h member, built.2 ++ [h])) built) ((∅ : Map HashCode String), [])
  { r with ring := built.1, keys := built.2.mergeSort }

def lookup (key : String) : String :=
  if r.keys.length = 0 then ""
  else
    let h := r.hasher key
    let idx := search (fun i => decide (h ≤ r.keys.getD i 0)) 0 r.keys.length
    let idx := if r.keys.length ≤ idx then 0 else idx
    (r.ring.lookup (r.keys.getD idx 0)).getD ""

/-- The virtual nodes of the members, each with its point on the ring. -/
def points (members : List String) : List (HashCode × String) := members.flatMap fun member =>
    (List.range r.virtualNodes).map fun i => (r.hashVNode member i, member)

/-- The point `v` is the smallest one of `ws` that is not below `h`, or the smallest of all when
every one is below. -/
def Follows (h : HashCode) (ws : List HashCode) (v : HashCode) : Prop :=
  (h ≤ v ∧ ∀ w ∈ ws, h ≤ w → v ≤ w) ∨ ((∀ w ∈ ws, w < h) ∧ ∀ w ∈ ws, v ≤ w)

variable {r}

lemma Follows.unique {h v w : HashCode} {ws : List HashCode} (hv : Follows h ws v)
    (hw : Follows h ws w) (hvs : v ∈ ws) (hws : w ∈ ws) : v = w := by
  rcases hv with ⟨hv, hvmin⟩ | ⟨hv, hvmin⟩ <;> rcases hw with ⟨hw, hwmin⟩ | ⟨hw, hwmin⟩
  · exact le_antisymm (hvmin w hws hw) (hwmin v hvs hv)
  · exact absurd (hw v hvs) (not_lt.mpr hv)
  · exact absurd (hv w hws) (not_lt.mpr hw)
  · exact le_antisymm (hvmin w hws) (hwmin v hvs)

lemma Follows.subset {h v : HashCode} {us ws : List HashCode} (hv : Follows h ws v)
    (hsub : us ⊆ ws) : Follows h us v := by
  rcases hv with ⟨hv, hmin⟩ | ⟨hall, hmin⟩
  · exact .inl ⟨hv, fun w hw => hmin w (hsub hw)⟩
  · exact .inr ⟨fun w hw => hall w (hsub hw), fun w hw => hmin w (hsub hw)⟩

/-- In a sorted list the search finds the point that follows. -/
lemma follows_search {h : HashCode} {ks : List HashCode} (hsorted : ks.Pairwise (· ≤ ·))
    (hne : ks.length ≠ 0) :
    let idx := search (fun i => decide (h ≤ ks.getD i 0)) 0 ks.length
    let v := ks.getD (if ks.length ≤ idx then 0 else idx) 0
    v ∈ ks ∧ Follows h ks v := by
  intro idx v
  have hget : ∀ {i}, i < ks.length → ks.getD i 0 ∈ ks := by
    intro i hi
    rw [getD_eq_getElem _ _ hi]
    exact getElem_mem hi
  have hmono : ∀ {a b}, a ≤ b → b < ks.length → ks.getD a 0 ≤ ks.getD b 0 := by
    intro a b hab hb
    rw [getD_eq_getElem _ _ hb, getD_eq_getElem _ _ (hab.trans_lt hb)]
    rcases hab.lt_or_eq with hlt | rfl
    · exact pairwise_iff_getElem.mp hsorted a b _ hb hlt
    · exact le_rfl
  obtain ⟨hle, hbelow, hat⟩ := search_spec (fun i => decide (h ≤ ks.getD i 0)) 0 ks.length
    (Nat.zero_le _) fun a b hab hb ha =>
      decide_eq_true ((of_decide_eq_true ha).trans (hmono hab hb))
  have hpos : ∀ w ∈ ks, ∃ i < ks.length, ks.getD i 0 = w := by
    intro w hw
    obtain ⟨i, hi, rfl⟩ := getElem_of_mem hw
    exact ⟨i, hi, getD_eq_getElem _ _ hi⟩
  by_cases hidx : ks.length ≤ idx
  · -- every point is below `h`, and the first one is the smallest
    have hv : v = ks.getD 0 0 := by simp only [v, if_pos hidx]
    rw [hv]
    refine ⟨hget (Nat.pos_of_ne_zero hne), .inr ⟨fun w hw => ?_, fun w hw => ?_⟩⟩
    · obtain ⟨i, hi, rfl⟩ := hpos w hw
      exact not_le.mp (of_decide_eq_false (hbelow i (Nat.zero_le _) (hi.trans_le hidx)))
    · obtain ⟨i, hi, rfl⟩ := hpos w hw
      exact hmono (Nat.zero_le _) hi
  · have hv : v = ks.getD idx 0 := by simp only [v, if_neg hidx]
    have hlt : idx < ks.length := not_le.mp hidx
    rw [hv]
    refine ⟨hget hlt, .inl ⟨of_decide_eq_true (hat hlt), fun w hw hhw => ?_⟩⟩
    obtain ⟨i, hi, rfl⟩ := hpos w hw
    by_contra hlow
    have hi' : i < idx := by
      by_contra hge
      exact hlow (hmono (not_lt.mp hge) hi)
    exact absurd hhw (of_decide_eq_false (hbelow i (Nat.zero_le _) hi'))

/-- The two loops of `set` go over the points. -/
lemma set_eq (r : ConsistentHashRing) (members : List String) :
    (r.set members).ring = (r.points members).foldl (fun m p => m.insert p.1 p.2) ∅ ∧
      (r.set members).keys = ((r.points members).map (·.1)).mergeSort := by
  have hpair : ∀ (ps : List (HashCode × String)) (m : Map HashCode String) (ks : List HashCode),
      ps.foldl (fun b p => (b.1.insert p.1 p.2, b.2 ++ [p.1])) (m, ks) =
        (ps.foldl (fun m p => m.insert p.1 p.2) m, ks ++ ps.map (·.1)) := by
    intro ps
    induction ps with
    | nil => simp
    | cons p ps ih =>
      intro m ks
      simp [ih]
  have hset : members.foldl (fun built member =>
      (List.range r.virtualNodes).foldl (fun built i =>
        (built.1.insert (r.hashVNode member i) member, built.2 ++ [r.hashVNode member i])) built)
      ((∅ : Map HashCode String), []) =
      (r.points members).foldl (fun b p => (b.1.insert p.1 p.2, b.2 ++ [p.1])) (∅, []) := by
    rw [points, foldl_flatMap]
    simp only [foldl_map]
  constructor
  · simp only [set, hset, hpair]
  · simp only [set, hset, hpair, nil_append]

/-- The member that `lookup` returns stands at the point that follows the hash of the key. -/
lemma lookup_set {members : List String} (hne : r.points members ≠ [])
    (hdistinct : ((r.points members).map (·.1)).Nodup) (key : String) :
    ∃ v, (v, (r.set members).lookup key) ∈ r.points members ∧
      Follows (r.hasher key) ((r.points members).map (·.1)) v := by
  obtain ⟨hring, hkeys⟩ := set_eq r members
  have hperm : (r.set members).keys.Perm ((r.points members).map (·.1)) := by
    rw [hkeys]
    exact mergeSort_perm _ _
  have hsorted : (r.set members).keys.Pairwise (· ≤ ·) := by
    rw [hkeys]
    exact pairwise_mergeSort' (· ≤ ·) _
  have hlen : (r.set members).keys.length ≠ 0 := by
    rw [hperm.length_eq, length_map]
    exact fun h => hne (length_eq_zero_iff.mp h)
  obtain ⟨hv, hfollows⟩ := follows_search (h := r.hasher key) hsorted hlen
  obtain ⟨⟨v, member⟩, hp, hpv⟩ := mem_map.mp (hperm.mem_iff.mp hv)
  refine ⟨v, ?_, ?_⟩
  · have hlookup : (r.set members).lookup key = member := by
      rw [lookup, if_neg hlen]
      simp only
      rw [show (r.set members).hasher = r.hasher from rfl, ← hpv, hring,
        lookup_foldl_insert hdistinct _ hp]
      rfl
    rw [hlookup]
    exact hp
  · rw [show v = _ from hpv]
    exact hfollows.subset hperm.symm.subset

/-- Whatever two rings agree on the points, up to those of `m`, they agree on the keys that are
not mapped to `m`. -/
lemma lookup_of_subset {members rest : List String} {key : String}
    (hne : r.points rest ≠ []) (hsub : r.points rest ⊆ r.points members)
    (hdistinct : ((r.points members).map (·.1)).Nodup)
    (hdistinct' : ((r.points rest).map (·.1)).Nodup) {v : HashCode}
    (hv : (v, (r.set members).lookup key) ∈ r.points rest)
    (hfollows : Follows (r.hasher key) ((r.points members).map (·.1)) v) :
    (r.set members).lookup key = (r.set rest).lookup key := by
  obtain ⟨w, hw, hwfollows⟩ := lookup_set hne hdistinct' key
  have hvw : v = w := (hfollows.subset (map_subset _ hsub)).unique hwfollows
    (mem_map_of_mem hv) (mem_map_of_mem hw)
  subst hvw
  have h := inj_on_of_nodup_map hdistinct (hsub hv) (hsub hw) rfl
  exact (Prod.mk.inj h).2

end ConsistentHashRing

open ConsistentHashRing

/-- The member that owns a key stands at the point that follows the hash of the key, the order of
the members plays no part, and one more member `m` takes over the keys that are mapped to it and
no others. -/
theorem lookup_minimal (hasher : String → HashCode) (virtualNodes : ℤ) (members : List String)
    (hdistinct : (((newConsistentHashRing hasher virtualNodes).points members).map (·.1)).Nodup)
    (key : String) :
    let r := newConsistentHashRing hasher virtualNodes
    (members ≠ [] → ∃ v, (v, (r.set members).lookup key) ∈ r.points members ∧
      Follows (hasher key) ((r.points members).map (·.1)) v) ∧
    (∀ members', members'.Perm members → (r.set members').lookup key = (r.set members).lookup key) ∧
    ∀ m rest, members.Perm (m :: rest) →
      (r.set members).lookup key = m ∨ (r.set members).lookup key = (r.set rest).lookup key := by
  intro r
  have hvirtual : r.virtualNodes ≠ 0 := by
    simp only [r, newConsistentHashRing, defaultVirtualNodes]
    split_ifs <;> omega
  have hpoints : ∀ {ms : List String}, ms ≠ [] → r.points ms ≠ [] := by
    intro ms hms h
    obtain ⟨m, ms', rfl⟩ := exists_cons_of_ne_nil hms
    have := flatMap_eq_nil_iff.mp h m mem_cons_self
    simp [hvirtual] at this
  have hlookup : members ≠ [] → ∃ v, (v, (r.set members).lookup key) ∈ r.points members ∧
      Follows (hasher key) ((r.points members).map (·.1)) v :=
    fun hne => lookup_set (hpoints hne) hdistinct key
  refine ⟨hlookup, fun members' hperm => ?_, fun m rest hperm => ?_⟩
  · by_cases hne : members = []
    · subst hne
      rw [perm_nil.mp hperm]
    · obtain ⟨v, hv, hfollows⟩ := hlookup hne
      have hp : (r.points _).Perm (r.points _) := hperm.flatMap_right _
      have hnodup := (hp.map (·.1)).nodup_iff.mpr hdistinct
      refine (lookup_of_subset ?_ hp.subset hdistinct hnodup (hp.mem_iff.mpr hv) hfollows).symm
      exact hpoints fun h => hne (perm_nil.mp (h ▸ hperm.symm))
  · obtain ⟨v, hv, hfollows⟩ := hlookup fun h => by simp [h] at hperm
    have hp : (r.points members).Perm (r.points (m :: rest)) := hperm.flatMap_right _
    have hsplit : r.points (m :: rest) =
        (List.range r.virtualNodes).map (fun i => (r.hashVNode m i, m)) ++ r.points rest :=
      flatMap_cons
    have hsub : r.points rest ⊆ r.points members := fun p hp' =>
      hp.mem_iff.mpr (hsplit ▸ mem_append_right _ hp')
    rcases mem_append.mp (hsplit ▸ hp.mem_iff.mp hv) with hown | hrest
    · obtain ⟨i, -, hi⟩ := mem_map.mp hown
      exact .inl (Prod.mk.inj hi).2.symm
    · have hnodup : ((r.points rest).map (·.1)).Nodup := by
        have h := (hp.map (·.1)).nodup_iff.mp hdistinct
        rw [hsplit, map_append] at h
        exact h.of_append_right
      exact .inr (lookup_of_subset (ne_nil_of_mem hrest) hsub hdistinct hnodup hrest hfollows)

/-- A hasher that tells texts apart by length: two members with one virtual node each. -/
theorem lookup_minimal_two :
    let r := newConsistentHashRing (fun text => Fin.ofNat _ text.length) 1
    (r.set ["a", "bb"]).lookup "key" = (r.set ["bb", "a"]).lookup "key" :=
  (lookup_minimal _ 1 ["bb", "a"] (by decide +kernel) "key").2.1 _ (by decide)

end GoAkt.Actor
