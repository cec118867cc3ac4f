import Mathlib.Tactic

/-!
# Walking a subtree with a stack

A forest is given twice, by the parent of each node and by the children of each node.
A walk keeps a stack of nodes still to visit and the list of the nodes visited so far.
It ends when the stack is empty, so on links that form a cycle it does not end; the
number of visits is bounded by a budget here, and on a forest any budget above the
number of nodes is enough. The list then holds the subtree, no node after its children.
-/
namespace GoAkt.Forests
open List
variable {ρ : Type*}

/-- The visits of a stack walk; `none` when the budget does not suffice. -/
def walk (kids : ρ → List ρ) : ℕ → List ρ → List ρ → Option (List ρ)
  | 0, _, _ => none
  | _ + 1, [], visited => some visited
  | budget + 1, n :: stack, visited => walk kids budget ((kids n).reverse ++ stack) (visited ++ [n])

/-- `up c r` says that `c` hangs under `r`; the children of a known node are listed. -/
structure IsForest (known : ρ → Prop) (up : ρ → ρ → Prop) (kids : ρ → List ρ) : Prop where
  nodup_kids : ∀ {r}, known r → (kids r).Nodup
  mem_kids : ∀ {r c}, known r → (c ∈ kids r ↔ up c r)
  known_of_up : ∀ {c r}, up c r → known c
  unique : ∀ {c r r'}, up c r → up c r' → r = r'
  acyclic : ∀ r, ¬Relation.TransGen up r r

/-- The nodes from which a chain of parents leads to `start`, `start` included. -/
def Below (up : ρ → ρ → Prop) (start r : ρ) : Prop := Relation.ReflTransGen up r start

section Walk
variable {known : ρ → Prop} {up : ρ → ρ → Prop} {kids : ρ → List ρ} {start : ρ}

lemma Below.refl : Below up start start := Relation.ReflTransGen.refl

lemma Below.child {c r : ρ} (hc : up c r) (hr : Below up start r) : Below up start c :=
  Relation.ReflTransGen.head hc hr

/-- What the visited nodes and the stack satisfy at every turn of the walk. -/
structure Walking (known : ρ → Prop) (up : ρ → ρ → Prop) (kids : ρ → List ρ) (start : ρ)
    (visited stack : List ρ) : Prop where
  nodup : (visited ++ stack).Nodup
  inside : ∀ r ∈ visited ++ stack, known r ∧ Below up start r
  hanging : ∀ r ∈ visited ++ stack, r = start ∨ ∃ p ∈ visited, up r p
  downward : visited.Pairwise fun a b => ¬up a b
  closed : ∀ r ∈ visited, ∀ c ∈ kids r, c ∈ visited ++ stack
  started : start ∈ visited ++ stack

lemma Walking.init (hstart : known start) : Walking known up kids start [] [start] where
  nodup := by simp
  inside := by
    intro r hr
    obtain rfl : r = start := by simpa using hr
    exact ⟨hstart, Below.refl⟩
  hanging := by
    intro r hr
    exact .inl (by simpa using hr)
  downward := List.Pairwise.nil
  closed := by simp
  started := by simp

variable {visited stack : List ρ}

section
variable (hf : IsForest known up kids)
include hf

/-- Nothing that was met hangs under the node on top of the stack. -/
lemma Walking.not_up_top {n c : ρ}
    (h : Walking known up kids start visited (n :: stack)) (hc : c ∈ visited ++ n :: stack) :
    ¬up c n := by
  intro hup
  rcases h.hanging c hc with rfl | ⟨p, hp, hcp⟩
  · exact hf.acyclic c (Relation.TransGen.head' hup (h.inside n (by simp)).2)
  · obtain rfl := hf.unique hup hcp
    exact (nodup_append'.mp h.nodup).2.2 hp mem_cons_self

lemma Walking.visit {n : ρ} (h : Walking known up kids start visited (n :: stack)) :
    Walking known up kids start (visited ++ [n]) ((kids n).reverse ++ stack) := by
  obtain ⟨hn, hbelow⟩ := h.inside n (by simp)
  have hmem : ∀ r, r ∈ (visited ++ [n]) ++ ((kids n).reverse ++ stack) ↔
      r ∈ visited ++ n :: stack ∨ r ∈ kids n := by
    intro r
    simp only [mem_append, mem_cons, mem_reverse]
    tauto
  refine ⟨?_, ?_, ?_, ?_, ?_, (hmem start).mpr (.inl h.started)⟩
  · have hperm : ((visited ++ [n]) ++ ((kids n).reverse ++ stack)).Perm
        (kids n ++ (visited ++ n :: stack)) := by
      have hkids : ((kids n).reverse ++ stack).Perm (kids n ++ stack) :=
        (reverse_perm (kids n)).append_right stack
      calc (visited ++ [n]) ++ ((kids n).reverse ++ stack)
          |>.Perm ((visited ++ [n]) ++ (kids n ++ stack)) := hkids.append_left _
        _ |>.Perm (kids n ++ ((visited ++ [n]) ++ stack)) := by
            rw [← append_assoc, ← append_assoc (kids n)]
            exact perm_append_comm.append_right stack
        _ = kids n ++ (visited ++ n :: stack) := by simp
    rw [hperm.nodup_iff, nodup_append']
    exact ⟨hf.nodup_kids hn, h.nodup,
      fun c hc hmet => h.not_up_top hf hmet ((hf.mem_kids hn).mp hc)⟩
  · intro r hr
    rcases (hmem r).mp hr with hr | hr
    · exact h.inside r hr
    · have hup := (hf.mem_kids hn).mp hr
      exact ⟨hf.known_of_up hup, hbelow.child hup⟩
  · intro r hr
    rcases (hmem r).mp hr with hr | hr
    · rcases h.hanging r hr with rfl | ⟨p, hp, hrp⟩
      · exact .inl rfl
      · exact .inr ⟨p, mem_append_left _ hp, hrp⟩
    · exact .inr ⟨n, by simp, (hf.mem_kids hn).mp hr⟩
  · rw [pairwise_append]
    refine ⟨h.downward, pairwise_singleton _ _, fun a ha b hb => ?_⟩
    obtain rfl : b = n := by simpa using hb
    exact h.not_up_top hf (mem_append_left _ ha)
  · intro r hr c hc
    rw [hmem]
    rcases mem_append.mp hr with hr | hr
    · exact .inl (h.closed r hr c hc)
    · obtain rfl : r = n := by simpa using hr
      exact .inr hc

/-- Enough budget ends the walk, with every node that was met visited. -/
lemma Walking.ends {bound : ℕ}
    (hbound : ∀ l : List ρ, l.Nodup → (∀ r ∈ l, known r) → l.length ≤ bound)
    (budget : ℕ) (h : Walking known up kids start visited stack)
    (hbudget : bound < budget + visited.length) :
    ∃ post, walk kids budget stack visited = some post ∧ Walking known up kids start post [] := by
  induction budget generalizing visited stack with
  | zero =>
    have hlength := hbound _ h.nodup fun r hr => (h.inside r hr).1
    rw [length_append] at hlength
    omega
  | succ budget ih =>
    cases stack with
    | nil => exact ⟨visited, rfl, h⟩
    | cons n stack =>
      refine ih (h.visit hf) ?_
      rw [length_append, length_singleton]
      omega

/-- A walk from a known node ends and has visited what is below it, children after
parents. -/
theorem walk_subtree {bound : ℕ}
    (hbound : ∀ l : List ρ, l.Nodup → (∀ r ∈ l, known r) → l.length ≤ bound)
    {budget : ℕ} (hbudget : bound < budget) (hstart : known start) :
    ∃ post, walk kids budget [start] [] = some post ∧ post.Nodup ∧
      (∀ r, r ∈ post ↔ Below up start r) ∧ (∀ r ∈ post, known r) ∧
      post.Pairwise fun a b => ¬up a b := by
  obtain ⟨post, hwalk, h⟩ := (Walking.init hstart).ends hf hbound budget (by simpa using hbudget)
  have hinside : ∀ r ∈ post, known r ∧ Below up start r := by simpa using h.inside
  refine ⟨post, hwalk, by simpa using h.nodup, fun r => ⟨fun hr => (hinside r hr).2, ?_⟩,
    fun r hr => (hinside r hr).1, h.downward⟩
  intro hbelow
  induction hbelow using Relation.ReflTransGen.head_induction_on with
  | refl => simpa using h.started
  | head hup _ ih =>
    have hkid := (hf.mem_kids (hinside _ ih).1).mpr hup
    simpa using h.closed _ ih _ hkid

end
end Walk
end GoAkt.Forests
