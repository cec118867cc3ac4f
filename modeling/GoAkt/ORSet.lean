import GoAkt.Crdt

/-!
# The observed-remove set

Elements are mapped to the causal dots of the additions that keep them present,
next to a clock that counts the additions seen of each node. Merging two sets
keeps the dots of either side that the other has not seen or still holds.

Everything below this module reads a set through `dots` and `clock` only, so the
order in which the maps are stored and iterated is never observed.
-/
namespace GoAkt.Crdt
open GoAkt.FiniteMaps GoAkt.VersionVectors GoAkt.Joins

/-- The changes made since the last `resetDelta`. -/
structure ORSetDelta (α : Type*) where
  added : Map α (List Dot)
  removed : Map α (List Dot)

/-- The set with its tracked changes (the field `delta` of the source). -/
structure ORSet (α : Type*) where
  entries : Map α (List Dot)
  clock : VersionVector NodeID
  changes : ORSetDelta α

def newORSetDelta {α : Type*} : ORSetDelta α := ⟨∅, ∅⟩

def newORSet {α : Type*} : ORSet α := ⟨∅, ∅, newORSetDelta⟩

namespace ORSet

@[simp] lemma clock_new : (newORSet : ORSet α).clock = ∅ := rfl

variable {α : Type*} [DecidableEq α]

/-- The dots stored for an element; a missing element reads as no dots. -/
def dots (s : ORSet α) (element : α) : List Dot := (s.entries.lookup element).getD []

/-- The dots added, and the dots removed, for an element since the last reset. -/
def addedDots (s : ORSet α) (element : α) : List Dot := (s.changes.added.lookup element).getD []

def removedDots (s : ORSet α) (element : α) : List Dot := (s.changes.removed.lookup element).getD []

def add (s : ORSet α) (nodeID : NodeID) (element : α) : ORSet α :=
  let counter := count s.clock nodeID + 1
  let d : Dot := ⟨nodeID, counter⟩
  { entries := s.entries.insert element (s.dots element ++ [d])
    clock := s.clock.insert nodeID counter
    changes :=
      { s.changes with
        added := s.changes.added.insert element (s.addedDots element ++ [d]) } }

/-- Removing an element that is not stored returns the set itself. -/
def remove (s : ORSet α) (element : α) : ORSet α :=
  match s.entries.lookup element with
  | none => s
  | some observed =>
    { entries := s.entries.erase element
      clock := s.clock
      changes :=
        { s.changes with
          removed := s.changes.removed.insert element (s.removedDots element ++ observed) } }

def contains (s : ORSet α) (element : α) : Bool :=
  match s.entries.lookup element with
  | none => false
  | some stored => decide (0 < stored.length)

def elements (s : ORSet α) : List α :=
  (s.entries.entries.filter fun entry => decide (0 < entry.2.length)).map Sigma.fst

variable (stored : List Dot) (mine theirs : List Dot) (theirClock : VersionVector NodeID)
  (kept : List Dot)

/-- One of the two inner loops of `merge`: keep the dots of one side that the
other side has not seen, or still holds. -/
def keepDots : List Dot := mine.foldl (fun kept d =>
    if !isDominated d theirClock || containsDot theirs d then appendDotUnique kept d
    else kept) kept

def mergeDots (s o : ORSet α) (element : α) : List Dot :=
  keepDots (o.dots element) (s.dots element) s.clock
    (keepDots (s.dots element) (o.dots element) o.clock [])

def merge (s o : ORSet α) : ORSet α where
  entries := collect (s.entries.keys ∪ o.entries.keys) fun element =>
    let kept := mergeDots s o element
    if 0 < kept.length then some kept else none
  clock := join s.clock o.clock
  changes := newORSetDelta

/-- Clock entries of the nodes that produced the newly added dots. -/
def addedClock (s : ORSet α) : VersionVector NodeID := s.changes.added.foldl (fun clock _ added =>
    added.foldl (fun clock d =>
      match s.clock.lookup d.nodeID with
      | some c => raise clock d.nodeID c
      | none => clock) clock) ∅

/-- The delta clock also covers each removed dot, by the dot's own counter. -/
def deltaClock (s : ORSet α) : VersionVector NodeID :=
  s.changes.removed.foldl (fun clock _ removed =>
    removed.foldl (fun clock d => raise clock d.nodeID d.counter) clock) s.addedClock

def delta (s : ORSet α) : Option (ORSet α) :=
  if s.changes.added.entries.length = 0 ∧ s.changes.removed.entries.length = 0 then none
  else some { entries := s.changes.added, clock := s.deltaClock, changes := newORSetDelta }

def resetDelta (s : ORSet α) : ORSet α := { s with changes := newORSetDelta }

/-- The highest dot of each node among the dots of one element. -/
def highest (stored : List Dot) : Map NodeID Dot := stored.foldl (fun highest d =>
    match highest.lookup d.nodeID with
    | none => highest.insert d.nodeID d
    | some existing =>
      if d.counter > existing.counter then highest.insert d.nodeID d else highest) ∅

def compact (s : ORSet α) : ORSet α where
  entries := collect s.entries.keys fun element =>
    let stored := s.dots element
    if stored.length = 0 then none
    else some ((highest stored).entries.map Sigma.snd)
  clock := s.clock
  changes := newORSetDelta

instance : ReplicatedData (ORSet α) where
  merge := merge
  delta := delta
  resetDelta := resetDelta
  compactData s := some s.compact

/-! ## Reading the operations through dots and clock -/

@[simp] lemma dots_new (e : α) : (newORSet : ORSet α).dots e = [] := by
  simp [newORSet, dots]

section
variable (s : ORSet α)
include s

lemma dots_add (n : NodeID) (e e' : α) : (s.add n e).dots e' =
      if e' = e then s.dots e ++ [⟨n, count s.clock n + 1⟩] else s.dots e' := by
  simp only [add, dots, lookup_insert_ite]
  split_ifs <;> rfl

lemma count_add (n m : NodeID) (e : α) :
    count (s.add n e).clock m = if m = n then count s.clock n + 1 else count s.clock m := by
  simp [add, count_insert]

lemma dots_remove (e e' : α) : (s.remove e).dots e' = if e' = e then [] else s.dots e' := by
  unfold remove
  cases h : s.entries.lookup e with
  | none =>
    split_ifs with he
    · subst e'
      simp [dots, h]
    · rfl
  | some observed =>
    simp only [dots, lookup_erase_ite]
    split_ifs <;> rfl

@[simp] lemma clock_remove (e : α) : (s.remove e).clock = s.clock := by
  unfold remove
  cases s.entries.lookup e <;> rfl

lemma lookup_clock_add (n m : NodeID) (e : α) : (s.add n e).clock.lookup m =
    if m = n then some (count s.clock n + 1) else s.clock.lookup m :=
  lookup_insert_ite _ _ _ _

lemma addedDots_add (n : NodeID) (e e' : α) : (s.add n e).addedDots e' =
    if e' = e then s.addedDots e ++ [⟨n, count s.clock n + 1⟩] else s.addedDots e' := by
  simp only [add, addedDots, lookup_insert_ite]
  split_ifs <;> rfl

@[simp] lemma removedDots_add (n : NodeID) (e e' : α) :
    (s.add n e).removedDots e' = s.removedDots e' := rfl

@[simp] lemma addedDots_remove (e e' : α) : (s.remove e).addedDots e' = s.addedDots e' := by
  unfold remove
  cases s.entries.lookup e <;> rfl

lemma removedDots_remove (e e' : α) : (s.remove e).removedDots e' =
    if e' = e then s.removedDots e ++ s.dots e else s.removedDots e' := by
  unfold remove
  cases h : s.entries.lookup e with
  | none =>
    have hnil : s.dots e = [] := by simp [dots, h]
    split_ifs with he
    · simp [he, hnil]
    · rfl
  | some observed =>
    have hdots : s.dots e = observed := by simp [dots, h]
    rw [hdots]
    simp only [removedDots, lookup_insert_ite]
    split_ifs <;> rfl

lemma contains_iff (e : α) : s.contains e = true ↔ s.dots e ≠ [] := by
  unfold contains dots
  cases s.entries.lookup e with
  | none => simp
  | some stored => simp [List.length_pos_iff]

lemma mem_elements (e : α) : e ∈ s.elements ↔ s.dots e ≠ [] := by
  simp only [elements, List.mem_map, List.mem_filter, decide_eq_true_eq]
  constructor
  · rintro ⟨⟨e', stored⟩, ⟨hmem, hpos⟩, rfl⟩
    rw [mem_entries_iff_lookup] at hmem
    simpa [dots, hmem, List.length_pos_iff] using hpos
  · intro h
    cases hl : s.entries.lookup e with
    | none => simp [dots, hl] at h
    | some stored =>
      refine ⟨⟨e, stored⟩, ⟨(mem_entries_iff_lookup _ _ _).mpr hl, ?_⟩, rfl⟩
      simpa [dots, hl, List.length_pos_iff] using h

end

lemma mem_keepDots (d : Dot) : d ∈ keepDots mine theirs theirClock kept ↔
      d ∈ kept ∨ (d ∈ mine ∧ (¬ d.counter ≤ count theirClock d.nodeID ∨ d ∈ theirs)) := by
  rw [keepDots, mem_foldl_keep (fun kept x _ (_ : True) y => mem_appendDotUnique kept x y)
    mine kept (fun _ _ => trivial) (fun _ _ => trivial), Bool.or_eq_true, containsDot_iff,
    Bool.not_eq_true', ← Bool.not_eq_true, isDominated_iff]

lemma dots_eq_nil (s : ORSet α) {e : α} (h : e ∉ s.entries.keys) : s.dots e = [] := by
  have hnone : s.entries.lookup e = none := AList.lookup_eq_none.mpr h
  simp [dots, hnone]

lemma dots_merge (s o : ORSet α) (e : α) : (s.merge o).dots e = mergeDots s o e := by
  have hcell : (s.merge o).dots e = (if e ∈ s.entries.keys ∪ o.entries.keys then
      (if 0 < (mergeDots s o e).length then some (mergeDots s o e) else none)
      else none).getD [] := by
    simp only [merge, dots, lookup_collect]
  rw [hcell]
  by_cases hmem : e ∈ s.entries.keys ∪ o.entries.keys
  · rw [if_pos hmem]
    split_ifs with hpos
    · rfl
    · exact (List.length_eq_zero_iff.mp (by omega)).symm
  · have hs : s.dots e = [] := s.dots_eq_nil fun h => hmem (List.mem_union_iff.mpr (.inl h))
    have ho : o.dots e = [] := o.dots_eq_nil fun h => hmem (List.mem_union_iff.mpr (.inr h))
    simp [hmem, mergeDots, hs, ho, keepDots]

/-- A merged element keeps a dot that one side holds and the other side has not
seen, or holds as well. -/
lemma mem_dots_merge (s o : ORSet α) (e : α) (d : Dot) :
    d ∈ (s.merge o).dots e ↔
      (d ∈ s.dots e ∧ (¬ d.counter ≤ count o.clock d.nodeID ∨ d ∈ o.dots e)) ∨
      (d ∈ o.dots e ∧ (¬ d.counter ≤ count s.clock d.nodeID ∨ d ∈ s.dots e)) := by
  rw [dots_merge, mergeDots, mem_keepDots, mem_keepDots]
  simp

@[simp] lemma count_merge (s o : ORSet α) (n : NodeID) :
    count (s.merge o).clock n = max (count s.clock n) (count o.clock n) :=
  count_join s.clock o.clock n

/-- One iteration of the loop of `compact`. -/
lemma lookup_highest_concat (x : Dot) (n : NodeID) : (highest (stored ++ [x])).lookup n =
      if n = x.nodeID then
        ((highest stored).lookup n).elim (some x)
          (fun d => if x.counter > d.counter then some x else some d)
      else (highest stored).lookup n := by
  conv_lhs => rw [highest, List.foldl_append]
  change AList.lookup n (match (highest stored).lookup x.nodeID with
    | none => (highest stored).insert x.nodeID x
    | some existing =>
      if x.counter > existing.counter then (highest stored).insert x.nodeID x
      else highest stored) = _
  by_cases hn : n = x.nodeID
  · subst n
    cases hl : (highest stored).lookup x.nodeID with
    | none => simp
    | some d => by_cases hc : x.counter > d.counter <;> simp [hc, hl]
  · cases hl : (highest stored).lookup x.nodeID with
    | none => simp [hn, AList.lookup_insert_ne hn]
    | some d => by_cases hc : x.counter > d.counter <;> simp [hc, hn, AList.lookup_insert_ne hn]

/-- The loop of `compact` keeps, for each node, a dot with the largest counter. -/
lemma lookup_highest (n : NodeID) :
    (∀ d, (highest stored).lookup n = some d → d ∈ stored ∧ d.nodeID = n ∧
      ∀ d' ∈ stored, d'.nodeID = n → d'.counter ≤ d.counter) ∧
    ((highest stored).lookup n = none → ∀ d' ∈ stored, d'.nodeID ≠ n) := by
  induction stored using List.reverseRecOn with
  | nil => simp [highest]
  | append_singleton stored x ih =>
    obtain ⟨hsome, hnone⟩ := ih
    rw [lookup_highest_concat]
    by_cases hn : n = x.nodeID
    · subst n
      rw [if_pos rfl]
      cases hl : (highest stored).lookup x.nodeID with
      | none =>
        have habsent := hnone hl
        simp only [Option.elim_none, Option.some.injEq, List.mem_append, List.mem_singleton]
        refine ⟨?_, by simp⟩
        rintro d rfl
        refine ⟨.inr rfl, rfl, ?_⟩
        rintro d' (hd' | rfl) hnode
        · exact absurd hnode (habsent d' hd')
        · exact le_rfl
      | some m =>
        obtain ⟨hm, hmn, hmax⟩ := hsome m hl
        simp only [Option.elim_some, List.mem_append, List.mem_singleton]
        by_cases hc : x.counter > m.counter
        · rw [if_pos hc]
          refine ⟨?_, by simp⟩
          rintro d hd
          cases hd
          refine ⟨.inr rfl, rfl, ?_⟩
          rintro d' (hd' | rfl) hnode
          · have := hmax d' hd' hnode
            omega
          · exact le_rfl
        · rw [if_neg hc]
          refine ⟨?_, by simp⟩
          rintro d hd
          cases hd
          refine ⟨.inl hm, hmn, ?_⟩
          rintro d' (hd' | rfl) hnode
          · exact hmax d' hd' hnode
          · omega
    · rw [if_neg hn]
      refine ⟨fun d hd => ?_, fun h d' hd' => ?_⟩
      · obtain ⟨hm, hmn, hmax⟩ := hsome d hd
        refine ⟨List.mem_append_left _ hm, hmn, ?_⟩
        intro d' hd' hnode
        rcases List.mem_append.mp hd' with hd' | hd'
        · exact hmax d' hd' hnode
        · rw [List.mem_singleton.mp hd'] at hnode
          exact absurd hnode.symm hn
      · rcases List.mem_append.mp hd' with hd' | hd'
        · exact hnone h d' hd'
        · rw [List.mem_singleton.mp hd']
          exact Ne.symm hn

/-- Compaction keeps exactly the dots that are highest for their node. -/
lemma mem_dots_compact (s : ORSet α) (e : α) (d : Dot) :
    d ∈ s.compact.dots e ↔
      d ∈ s.dots e ∧ ∀ d' ∈ s.dots e, d'.nodeID = d.nodeID → d'.counter ≤ d.counter := by
  have hcell : s.compact.dots e = (if e ∈ s.entries.keys then
      (if (s.dots e).length = 0 then none
        else some ((highest (s.dots e)).entries.map Sigma.snd)) else none).getD [] := by
    simp only [compact, dots, lookup_collect]
  have hvalues : d ∈ (highest (s.dots e)).entries.map Sigma.snd ↔
      ∃ n, (highest (s.dots e)).lookup n = some d := by
    simp only [List.mem_map]
    constructor
    · rintro ⟨⟨n, d'⟩, hmem, rfl⟩
      exact ⟨n, (mem_entries_iff_lookup _ _ _).mp hmem⟩
    · rintro ⟨n, hn⟩
      exact ⟨⟨n, d⟩, (mem_entries_iff_lookup _ _ _).mpr hn, rfl⟩
  have hspec : (∃ n, (highest (s.dots e)).lookup n = some d) ↔
      d ∈ s.dots e ∧ ∀ d' ∈ s.dots e, d'.nodeID = d.nodeID → d'.counter ≤ d.counter := by
    constructor
    · rintro ⟨n, hn⟩
      obtain ⟨hmem, rfl, hmax⟩ := (lookup_highest (s.dots e) n).1 d hn
      exact ⟨hmem, hmax⟩
    · rintro ⟨hmem, hmax⟩
      refine ⟨d.nodeID, ?_⟩
      cases hl : (highest (s.dots e)).lookup d.nodeID with
      | none => exact absurd rfl ((lookup_highest (s.dots e) d.nodeID).2 hl d hmem)
      | some m =>
        obtain ⟨hm, hmn, hmmax⟩ := (lookup_highest (s.dots e) d.nodeID).1 m hl
        have hcounter : m.counter = d.counter := le_antisymm (hmax m hm hmn) (hmmax d hmem rfl)
        cases m
        cases d
        simp_all
  rw [hcell]
  by_cases hkey : e ∈ s.entries.keys
  · rw [if_pos hkey]
    by_cases hlen : (s.dots e).length = 0
    · simp [List.length_eq_zero_iff.mp hlen]
    · rw [if_neg hlen, Option.getD_some, hvalues, hspec]
  · simp [hkey, s.dots_eq_nil hkey]

/-- What the delta clock covers: everything the clock has of a node that added
since the last reset, and every removed dot. -/
lemma le_count_deltaClock (s : ORSet α) (n : NodeID) (k : ℕ) :
    k ≤ count s.deltaClock n ↔ k = 0 ∨
      (∃ e, ∃ d ∈ s.addedDots e, d.nodeID = n ∧ ∃ c, s.clock.lookup n = some c ∧ k ≤ c) ∨
      (∃ e, ∃ d ∈ s.removedDots e, d.nodeID = n ∧ k ≤ d.counter) := by
  have hadded : s.addedClock = s.changes.added.foldl (fun clock _ added =>
      added.foldl (raiseBy fun d => (s.clock.lookup d.nodeID).map fun c => (d.nodeID, c)) clock)
      ∅ := by
    have hbody : (fun (clock : VersionVector NodeID) (d : Dot) =>
        match s.clock.lookup d.nodeID with
        | some c => raise clock d.nodeID c
        | none => clock) =
        raiseBy fun d => (s.clock.lookup d.nodeID).map fun c => (d.nodeID, c) := by
      funext clock d
      cases h : s.clock.lookup d.nodeID <;> simp [raiseBy, h]
    unfold addedClock
    rw [hbody]
  have hremoved : s.deltaClock = s.changes.removed.foldl (fun clock _ removed =>
      removed.foldl (raiseBy fun d => some (d.nodeID, d.counter)) clock) s.addedClock := rfl
  rw [hremoved, le_count_foldl_lists, hadded, le_count_foldl_lists, count_empty,
    Nat.le_zero, or_assoc]
  refine or_congr_right (or_congr ?_ ?_)
  · refine exists_congr fun e => exists_congr fun d => and_congr_right fun _ => ?_
    simp only [Option.map_eq_some_iff, Prod.mk.injEq]
    constructor
    · rintro ⟨j, ⟨c, hc, rfl, rfl⟩, hk⟩
      exact ⟨rfl, c, hc, hk⟩
    · rintro ⟨rfl, c, hc, hk⟩
      exact ⟨c, ⟨c, hc, rfl, rfl⟩, hk⟩
  · refine exists_congr fun e => exists_congr fun d => and_congr_right fun _ => ?_
    simp only [Option.some.injEq, Prod.mk.injEq]
    constructor
    · rintro ⟨j, ⟨rfl, rfl⟩, hk⟩
      exact ⟨rfl, hk⟩
    · rintro ⟨rfl, hk⟩
      exact ⟨d.counter, ⟨rfl, rfl⟩, hk⟩

lemma getD_lookup_eq_nil {m : Map α (List Dot)} (h : m.entries.length = 0) (e : α) :
    (m.lookup e).getD [] = [] := by
  have hnil : m.entries = [] := List.length_eq_zero_iff.mp h
  simp [AList.lookup, hnil]

variable {s : ORSet α}

/-- Without a delta nothing was tracked. -/
lemma dots_of_delta_eq_none (h : s.delta = none) (e : α) :
    s.addedDots e = [] ∧ s.removedDots e = [] := by
  unfold delta at h
  split_ifs at h with hempty
  exact ⟨getD_lookup_eq_nil hempty.1 e, getD_lookup_eq_nil hempty.2 e⟩

lemma delta_eq_some {s d : ORSet α} (h : s.delta = some d) :
    (∀ e, d.dots e = s.addedDots e) ∧ d.clock = s.deltaClock := by
  unfold delta at h
  split_ifs at h with hempty
  cases h
  exact ⟨fun _ => rfl, rfl⟩

@[simp] lemma addedDots_resetDelta (s : ORSet α) (e : α) : s.resetDelta.addedDots e = [] := by
  simp [resetDelta, addedDots, newORSetDelta]

@[simp] lemma removedDots_resetDelta (s : ORSet α) (e : α) : s.resetDelta.removedDots e = [] := by
  simp [resetDelta, removedDots, newORSetDelta]

/-! ## Merge as a join -/

/-- Every stored dot has been counted by the set's own clock. -/
def Covered (s : ORSet α) : Prop := ∀ e, ∀ d ∈ s.dots e, d.counter ≤ count s.clock d.nodeID

/-- Same clock, a missing node counting as zero, and the same dots everywhere. -/
def Same (a b : ORSet α) : Prop :=
  (∀ n, count a.clock n = count b.clock n) ∧ ∀ e d, d ∈ a.dots e ↔ d ∈ b.dots e

lemma covered_new : Covered (newORSet : ORSet α) := by simp [Covered]

lemma covered_add (h : s.Covered) (n : NodeID) (e : α) : (s.add n e).Covered := by
  intro e' d hd
  rw [count_add]
  have hold : d ∈ s.dots e' → d.counter ≤
      if d.nodeID = n then count s.clock n + 1 else count s.clock d.nodeID := by
    intro hd
    have := h e' d hd
    split_ifs with hn
    · rw [hn] at this
      omega
    · exact this
  rw [dots_add] at hd
  split_ifs at hd with he
  · subst e'
    rcases List.mem_append.mp hd with hd | hd
    · exact hold hd
    · rw [List.mem_singleton.mp hd]
      simp
  · exact hold hd

lemma covered_remove (h : s.Covered) (e : α) : (s.remove e).Covered := by
  intro e' d hd
  rw [dots_remove] at hd
  rw [clock_remove]
  split_ifs at hd with he
  · simp at hd
  · exact h e' d hd

lemma covered_merge {s o : ORSet α} (hs : s.Covered) (ho : o.Covered) : (s.merge o).Covered := by
  intro e d hd
  rw [count_merge, le_max_iff]
  rcases (mem_dots_merge s o e d).mp hd with ⟨hd, -⟩ | ⟨hd, -⟩
  · exact .inl (hs e d hd)
  · exact .inr (ho e d hd)

lemma covered_compact (h : s.Covered) : s.compact.Covered := by
  intro e d hd
  exact h e d ((mem_dots_compact s e d).mp hd).1

/-- On covered sets a dot survives a merge exactly when some side holds it and no
side has seen it without holding it. -/
lemma mem_dots_merge_covered {s o : ORSet α} (hs : s.Covered) (ho : o.Covered) (e : α)
    (d : Dot) :
    d ∈ (s.merge o).dots e ↔ (d ∈ s.dots e ∨ d ∈ o.dots e) ∧
      (d.counter ≤ count s.clock d.nodeID → d ∈ s.dots e) ∧
      (d.counter ≤ count o.clock d.nodeID → d ∈ o.dots e) := by
  have hs' := hs e d
  have ho' := ho e d
  rw [mem_dots_merge]
  tauto

/-- Three covered sets merged from the left: some set holds the dot, and none has
seen it without holding it. -/
lemma mem_dots_merge_left {a b c : ORSet α} (ha : a.Covered) (hb : b.Covered)
    (hc : c.Covered) (e : α) (d : Dot) :
    d ∈ ((a.merge b).merge c).dots e ↔ (d ∈ a.dots e ∨ d ∈ b.dots e ∨ d ∈ c.dots e) ∧
      (d.counter ≤ count a.clock d.nodeID → d ∈ a.dots e) ∧
      (d.counter ≤ count b.clock d.nodeID → d ∈ b.dots e) ∧
      (d.counter ≤ count c.clock d.nodeID → d ∈ c.dots e) := by
  have ha' := ha e d
  have hb' := hb e d
  rw [mem_dots_merge_covered (covered_merge ha hb) hc, mem_dots_merge_covered ha hb,
    count_merge, le_max_iff]
  grind

lemma Same.contains_eq {s t : ORSet α} (h : Same s t) (e : α) : s.contains e = t.contains e := by
  rw [Bool.eq_iff_iff, contains_iff, contains_iff, ne_eq, ne_eq,
    List.eq_nil_iff_forall_not_mem, List.eq_nil_iff_forall_not_mem]
  exact not_congr (forall_congr' fun d => not_congr (h.2 e d))

/-- Merging covered sets is a join up to `Same`. -/
lemma merge_joinOn : JoinOn (Covered (α := α)) Same merge where
  equivalence :=
    { refl := fun _ => ⟨fun _ => rfl, fun _ _ => Iff.rfl⟩
      symm := fun h => ⟨fun n => (h.1 n).symm, fun e d => (h.2 e d).symm⟩
      trans := fun h h' =>
        ⟨fun n => (h.1 n).trans (h'.1 n), fun e d => (h.2 e d).trans (h'.2 e d)⟩ }
  closed := covered_merge
  congr := by
    intro a a' b b' _ _ _ _ haa hbb
    refine ⟨fun n => by simp [haa.1, hbb.1], fun e d => ?_⟩
    simp only [mem_dots_merge, haa.1, haa.2, hbb.1, hbb.2]
  comm := by
    intro a b _ _
    refine ⟨fun n => by simp [max_comm], fun e d => ?_⟩
    rw [mem_dots_merge, mem_dots_merge]
    exact Or.comm
  assoc := by
    intro a b c ha hb hc
    refine ⟨fun n => by simp [max_assoc], fun e d => ?_⟩
    have hcomm : d ∈ (a.merge (b.merge c)).dots e ↔ d ∈ ((b.merge c).merge a).dots e := by
      rw [mem_dots_merge, mem_dots_merge (b.merge c)]
      exact Or.comm
    rw [hcomm, mem_dots_merge_left ha hb hc, mem_dots_merge_left hb hc ha]
    grind
  idem := by
    intro a ha
    refine ⟨fun n => by simp, fun e d => ?_⟩
    have ha' := ha e d
    rw [mem_dots_merge]
    tauto

/-- The coverage invariant is established and kept by every operation, and on
covered sets merging is commutative, associative and idempotent. -/
theorem merge_semilattice :
    (Covered (newORSet : ORSet α) ∧
      (∀ (s : ORSet α) (n : NodeID) (e : α), s.Covered → (s.add n e).Covered) ∧
      (∀ (s : ORSet α) (e : α), s.Covered → (s.remove e).Covered) ∧
      (∀ s o : ORSet α, s.Covered → o.Covered → (s.merge o).Covered) ∧
      (∀ s : ORSet α, s.Covered → s.compact.Covered)) ∧
    ∀ a b c : ORSet α, a.Covered → b.Covered → c.Covered →
      Same (a.merge b) (b.merge a) ∧
      Same ((a.merge b).merge c) (a.merge (b.merge c)) ∧
      Same (a.merge a) a :=
  ⟨⟨covered_new, fun _ n e h => covered_add h n e, fun _ e h => covered_remove h e,
    fun _ _ hs ho => covered_merge hs ho, fun _ h => covered_compact h⟩,
    fun _ _ _ ha hb hc => ⟨merge_joinOn.comm ha hb, merge_joinOn.assoc ha hb hc,
      merge_joinOn.idem ha⟩⟩

/-- A removal at one replica, the stale copy it was made from, and a concurrent
addition. -/
theorem merge_assoc_removed_stale_readded :
    Same ((((newORSet.add "node-1" "a").remove "a").merge (newORSet.add "node-1" "a")).merge
        (newORSet.add "node-2" "a"))
      (((newORSet.add "node-1" "a").remove "a").merge
        ((newORSet.add "node-1" "a").merge (newORSet.add "node-2" "a"))) :=
  (merge_semilattice.2 _ _ _ (covered_remove (covered_add covered_new _ _) _)
    (covered_add covered_new _ _) (covered_add covered_new _ _)).2.1

end ORSet
end GoAkt.Crdt
