import Mathlib.Tactic

/-!
# Ring buffers

A ring stores its items in consecutive slots of a buffer, starting at `head` and wrapping
around at the end; the slots that hold no item are nil. What a ring holds is a list, and
putting, removing and growing act on the list as they do on a queue.
-/
namespace GoAkt.Rings
open Nat List

structure RingBuffer (α : Type*) where
  buf : List (Option α)
  /-- The slot of the next item to be read. -/
  head : ℕ
  /-- The slot to be written next. -/
  tail : ℕ
  size : ℕ

namespace RingBuffer
variable {α : Type*} (r : RingBuffer α)

def cap : ℕ := r.buf.length

def slot (i : ℕ) : Option α := r.buf[i]?.join

def empty (cap : ℕ) : RingBuffer α := ⟨List.replicate cap none, 0, 0, 0⟩

def front : Option α := r.slot r.head

/-- Write the next slot. -/
def put (entry : Option α) : RingBuffer α :=
  { r with
    buf := r.buf.set r.tail entry
    tail := (r.tail + 1) % r.cap
    size := r.size + 1 }

/-- Clear the slot of the first item and go on to the next. -/
def remove : RingBuffer α :=
  { r with
    buf := r.buf.set r.head none
    head := (r.head + 1) % r.cap
    size := r.size - 1 }

/-- Copy the items to the start of a new buffer. -/
def relocate (newCap : ℕ) : RingBuffer α where
  buf := (List.range r.size).map (fun i => r.slot ((r.head + i) % r.cap)) ++
    List.replicate (newCap - r.size) none
  head := 0
  tail := r.size
  size := r.size

/-- The items in the order in which they will be read. -/
def items : List α := (List.range r.size).filterMap fun i => r.slot ((r.head + i) % r.cap)

/-- The ring holds exactly these items: the indices are consistent, the items stand one
behind the other and every other slot is nil. -/
structure Holds (r : RingBuffer α) (items : List α) : Prop where
  head_lt : r.head < r.cap
  tail_eq : r.tail = (r.head + r.size) % r.cap
  size_eq : r.size = items.length
  size_le : r.size ≤ r.cap
  slots : ∀ i < r.cap, r.slot ((r.head + i) % r.cap) = items[i]?

/-- Distinct offsets below the capacity reach distinct slots. -/
lemma offset_inj (head : ℕ) {i j cap : ℕ} (hi : i < cap) (hj : j < cap)
    (h : (head + i) % cap = (head + j) % cap) : i = j := by
  have hmod : i ≡ j [MOD cap] := Nat.ModEq.add_left_cancel' head h
  exact hmod.eq_of_lt_of_lt hi hj

@[simp] lemma cap_put (entry : Option α) : (r.put entry).cap = r.cap := by
  simp [cap, put]

@[simp] lemma cap_remove : r.remove.cap = r.cap := by
  simp [cap, remove]

lemma cap_relocate {newCap : ℕ} (hle : r.size ≤ newCap) : (r.relocate newCap).cap = newCap := by
  simp only [cap, relocate, length_append, length_map, length_range, length_replicate]
  omega

lemma slot_put (entry : Option α) {i : ℕ} (hi : i < r.cap) :
    (r.put entry).slot i = if i = r.tail then entry else r.slot i := by
  have hlen : i < r.buf.length := hi
  by_cases htail : i = r.tail
  · rw [if_pos htail, slot, put, ← htail, getElem?_set_self hlen, Option.join_some]
  · rw [if_neg htail, slot, put, getElem?_set_ne (Ne.symm htail), slot]

lemma slot_remove (i : ℕ) : r.remove.slot i = if i = r.head then none else r.slot i := by
  simp only [slot, remove, getElem?_set]
  split_ifs <;> simp_all

lemma holds_empty {cap : ℕ} (hcap : 0 < cap) : (empty cap : RingBuffer α).Holds [] where
  head_lt := by simpa [empty, RingBuffer.cap] using hcap
  tail_eq := by simp [empty]
  size_eq := rfl
  size_le := zero_le _
  slots i _ := by
    simp only [slot, empty, getElem?_replicate, getElem?_nil]
    split_ifs <;> rfl

variable {r : RingBuffer α} {items : List α}

lemma Holds.put (h : r.Holds items) (hlt : r.size < r.cap)
    (a : α) : (r.put (some a)).Holds (items ++ [a]) where
  head_lt := by
    rw [cap_put]
    exact h.head_lt
  tail_eq := by
    rw [cap_put]
    change (r.tail + 1) % r.cap = (r.head + (r.size + 1)) % r.cap
    rw [h.tail_eq, mod_add_mod, add_assoc]
  size_eq := by
    change r.size + 1 = _
    rw [h.size_eq, length_append, length_singleton]
  size_le := by
    rw [cap_put]
    exact hlt
  slots i hi := by
    rw [cap_put] at hi ⊢
    have hslot : (r.head + i) % r.cap < r.cap := mod_lt _ (zero_lt_of_lt hi)
    change (r.put (some a)).slot ((r.head + i) % r.cap) = _
    rw [slot_put r _ hslot, h.tail_eq, h.slots i hi]
    have hsize := h.size_eq
    by_cases his : i = r.size
    · rw [if_pos (by rw [his]), his, hsize, getElem?_append_right le_rfl]
      simp
    · have hne : ¬(r.head + i) % r.cap = (r.head + r.size) % r.cap :=
        fun heq => his (offset_inj r.head hi hlt heq)
      rw [if_neg hne]
      rcases lt_or_gt_of_ne his with hbelow | habove
      · rw [getElem?_append_left (by omega)]
      · rw [getElem?_eq_none (by omega), getElem?_eq_none (by simp; omega)]

lemma Holds.front (h : r.Holds items) : r.front = items.head? := by
  have hslot := h.slots 0 (zero_lt_of_lt h.head_lt)
  rw [add_zero, mod_eq_of_lt h.head_lt] at hslot
  rw [RingBuffer.front, hslot, head?_eq_getElem?]

lemma Holds.remove {a : α} (h : r.Holds (a :: items)) : r.remove.Holds items where
  head_lt := by
    rw [cap_remove]
    exact mod_lt _ (zero_lt_of_lt h.head_lt)
  tail_eq := by
    have hsize := h.size_eq
    rw [cap_remove]
    change r.tail = ((r.head + 1) % r.cap + (r.size - 1)) % r.cap
    rw [mod_add_mod, h.tail_eq, hsize, length_cons]
    congr 1
    omega
  size_eq := by
    change r.size - 1 = _
    rw [h.size_eq]
    rfl
  size_le := by
    rw [cap_remove]
    exact le_trans (sub_le _ _) h.size_le
  slots i hi := by
    rw [cap_remove] at hi ⊢
    change r.remove.slot (((r.head + 1) % r.cap + i) % r.cap) = _
    rw [mod_add_mod, slot_remove, add_assoc, add_comm 1 i]
    rcases lt_or_ge (i + 1) r.cap with hlt | hge
    · have hne : ¬(r.head + (i + 1)) % r.cap = r.head := by
        intro heq
        have hzero : i + 1 = 0 := by
          refine offset_inj r.head hlt (zero_lt_of_lt hlt) ?_
          rw [heq, add_zero, mod_eq_of_lt h.head_lt]
        omega
      rw [if_neg hne, h.slots (i + 1) hlt, getElem?_cons_succ]
    · -- The last offset has come round to the slot that was cleared.
      have hlast : i + 1 = r.cap := by omega
      have hle := h.size_le
      rw [h.size_eq, length_cons] at hle
      rw [hlast, add_mod_right, mod_eq_of_lt h.head_lt, if_pos rfl,
        getElem?_eq_none (by omega)]

lemma Holds.relocate (h : r.Holds items) {newCap : ℕ}
    (hlt : r.size < newCap) : (r.relocate newCap).Holds items := by
  have hcap := r.cap_relocate hlt.le
  refine ⟨by rw [hcap]; exact zero_lt_of_lt hlt, ?_, h.size_eq, by rw [hcap]; exact hlt.le,
    fun i hi => ?_⟩
  · rw [hcap]
    change r.size = (0 + r.size) % newCap
    rw [zero_add, mod_eq_of_lt hlt]
  · rw [hcap] at hi ⊢
    change (r.relocate newCap).slot ((0 + i) % newCap) = _
    rw [zero_add, mod_eq_of_lt hi]
    have hsize := h.size_eq
    have hle := h.size_le
    simp only [slot, RingBuffer.relocate]
    by_cases his : i < r.size
    · rw [getElem?_append_left (by simpa using his)]
      simp only [getElem?_map, getElem?_range his, Option.map_some, Option.join_some]
      exact h.slots i (by omega)
    · rw [getElem?_append_right (by simpa using his), getElem?_eq_none (l := items)
        (by omega), getElem?_replicate]
      split_ifs <;> rfl

lemma Holds.items_eq (h : r.Holds items) : r.items = items := by
  have hmap : (range r.size).filterMap (fun i => r.slot ((r.head + i) % r.cap)) =
      (range items.length).filterMap (fun i => items[i]?) := by
    rw [h.size_eq]
    refine filterMap_congr fun i hi => h.slots i ?_
    have hlt := mem_range.mp hi
    have hle := h.size_le
    rw [h.size_eq] at hle
    omega
  rw [RingBuffer.items, hmap]
  clear hmap h
  induction items using reverseRecOn with
  | nil => rfl
  | append_singleton items a ih =>
    rw [length_append, length_singleton, range_succ, filterMap_append]
    have hfront : (range items.length).filterMap (fun i => (items ++ [a])[i]?) =
        (range items.length).filterMap (fun i => items[i]?) :=
      filterMap_congr fun i hi => getElem?_append_left (mem_range.mp hi)
    rw [hfront, ih]
    simp

/-- Move up to `n` items from one ring to the end of another one, as long as there is
room. -/
def transfer : ℕ → RingBuffer α → RingBuffer α → RingBuffer α × RingBuffer α
  | 0, source, dest => (source, dest)
  | n + 1, source, dest =>
    if dest.size = dest.cap then (source, dest)
    else transfer n source.remove (dest.put source.front)

/-- A transfer moves a run of items from the front of one list to the end of the other:
the order of what is moved and of what stays is kept. -/
theorem Holds.transfer {source dest : RingBuffer α} {items others : List α}
    (hs : source.Holds items) (hd : dest.Holds others) {n : ℕ} (hn : n ≤ items.length) :
    let moved := min n (dest.cap - dest.size)
    (transfer n source dest).1.Holds (items.drop moved) ∧
      (transfer n source dest).2.Holds (others ++ items.take moved) ∧
      (transfer n source dest).1.cap = source.cap ∧ (transfer n source dest).2.cap = dest.cap := by
  induction n generalizing source dest items others with
  | zero => simpa [RingBuffer.transfer] using ⟨hs, hd⟩
  | succ n ih =>
    have hle := hd.size_le
    unfold RingBuffer.transfer
    split_ifs with hfull
    · have hmoved : min (n + 1) (dest.cap - dest.size) = 0 := by omega
      simpa only [hmoved, drop_zero, take_zero, append_nil, and_true] using ⟨hs, hd⟩
    · cases items with
      | nil => exact absurd hn (by simp)
      | cons a items =>
        have hlt : dest.size < dest.cap := lt_of_le_of_ne hle hfull
        rw [hs.front, head?_cons]
        have hmoved : min (n + 1) (dest.cap - dest.size) =
            min n ((dest.put (some a)).cap - (dest.put (some a)).size) + 1 := by
          rw [cap_put]
          change _ = min n (dest.cap - (dest.size + 1)) + 1
          omega
        have hrest := ih hs.remove (hd.put hlt a) (le_of_succ_le_succ hn)
        simp only [hmoved, drop_succ_cons, take_succ_cons]
        simpa using hrest

end RingBuffer
end GoAkt.Rings
