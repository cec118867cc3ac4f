import Mathlib.Tactic

/-!
# Neighbours in a list

Two elements next to each other are an infix of length two. A list that grows at its end gets
one new pair, and one that loses its first element keeps all pairs but the first.
-/
namespace GoAkt.Neighbours
open List
variable {α : Type*} {l : List α} {a b c v : α}

lemma left_mem_of_neighbours (h : [a, b] <:+: l) : a ∈ l := h.subset (by simp)

lemma right_mem_of_neighbours (h : [a, b] <:+: l) : b ∈ l := h.subset (by simp)

lemma neighbours_concat (hlast : l.getLast? = some c) :
    [a, b] <:+: l ++ [v] ↔ [a, b] <:+: l ∨ a = c ∧ b = v := by
  obtain ⟨front, rfl⟩ := List.getLast?_eq_some_iff.mp hlast
  constructor
  · rintro ⟨s, t, heq⟩
    rcases eq_nil_or_concat t with rfl | ⟨t, d, rfl⟩
    · have hsplit : s ++ [a, b] = front ++ [c, v] := by simpa using heq
      obtain ⟨-, hpair⟩ := append_inj' hsplit rfl
      cases hpair
      exact .inr ⟨rfl, rfl⟩
    · have hsplit : (s ++ [a, b] ++ t) ++ [d] = front ++ [c] ++ [v] := by simpa using heq
      obtain ⟨hfront, -⟩ := append_inj' hsplit rfl
      exact .inl ⟨s, t, hfront⟩
  · rintro (h | ⟨rfl, rfl⟩)
    · exact h.trans (prefix_append _ [v]).isInfix
    · exact ⟨front, [], by simp⟩

lemma neighbours_cons (h : [a, b] <:+: c :: l) : a = c ∨ [a, b] <:+: l := by
  rcases infix_cons_iff.mp h with hpre | hrest
  · exact .inl (cons_prefix_cons.mp hpre).1
  · exact .inr hrest

/-- The last element has no right neighbour. -/
lemma getLast?_ne_of_neighbours (hnodup : l.Nodup) (h : [a, b] <:+: l) : l.getLast? ≠ some a := by
  obtain ⟨s, t, rfl⟩ := h
  intro hlast
  have hmem : a ∈ b :: t := by
    refine mem_of_getLast? ?_
    simpa using hlast
  have hsplit : (s ++ a :: b :: t).Nodup := by simpa using hnodup
  exact (nodup_cons.mp (nodup_append.mp hsplit).2.1).1 hmem

lemma neighbours_of_tail_ne_nil (hhead : l.head? = some a) (h : l.tail ≠ []) :
    ∃ b, [a, b] <:+: l := by
  obtain ⟨rest, rfl⟩ := List.head?_eq_some_iff.mp hhead
  obtain ⟨b, rest, rfl⟩ := exists_cons_of_ne_nil h
  exact ⟨b, [], rest, rfl⟩

/-- An element is the last one or has a right neighbour. -/
lemma neighbours_of_mem (h : a ∈ l) (hlast : l.getLast? = some c) : a = c ∨ ∃ b, [a, b] <:+: l := by
  obtain ⟨s, t, rfl⟩ := append_of_mem h
  cases t with
  | nil =>
    rw [List.getLast?_concat, Option.some.injEq] at hlast
    exact .inl hlast
  | cons b t => exact .inr ⟨b, s, t, by simp⟩

lemma last_or_neighbours (h : a ∈ l) : l.getLast? = some a ∨ ∃ b, [a, b] <:+: l := by
  obtain ⟨c, hc⟩ := Option.isSome_iff_exists.mp (List.getLast?_isSome.mpr (ne_nil_of_mem h))
  rcases neighbours_of_mem h hc with rfl | hb
  · exact .inl hc
  · exact .inr hb

end GoAkt.Neighbours
