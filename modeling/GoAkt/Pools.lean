import Mathlib.Tactic

/-!
# Pools of objects

Objects are taken from a pool, or made when the pool is empty, and put back when they are no
longer used. A full pool drops what is put back. Objects in use have a seat; as long as only
objects that have a seat are put back, and lose it then, no object is handed out twice.
-/
namespace GoAkt.Pools
open Function List
variable {ω σ : Type*} [DecidableEq ω]

/-- The objects in the pool, and all that were ever made. -/
structure Pool (ω : Type*) where
  free : List ω
  made : List ω

namespace Pool

/-- The pool after the object was taken out, or made if it is a new one. -/
def take (p : Pool ω) (x : ω) : Option (Pool ω) :=
  if x ∈ p.free then some { p with free := p.free.erase x }
  else if x ∈ p.made then none
  else some { p with made := x :: p.made }

def put (p : Pool ω) (x : ω) (kept : Bool) : Pool ω :=
  if kept then { p with free := p.free ++ [x] } else p

end Pool

/-- No object in the pool has a seat, and no object that was not made. -/
structure Seated (p : Pool ω) (seat : ω → Option σ) : Prop where
  free : ∀ x ∈ p.free, seat x = none
  nodup : p.free.Nodup
  made : ∀ x, seat x ≠ none → x ∈ p.made
  free_made : ∀ x ∈ p.free, x ∈ p.made

namespace Seated
variable {p p' : Pool ω} {seat : ω → Option σ} {x : ω}

lemma take (h : Seated p seat) (htake : p.take x = some p') :
    Seated p' seat ∧ seat x = none ∧ x ∉ p'.free ∧ x ∈ p'.made := by
  unfold Pool.take at htake
  split_ifs at htake with hfree hmade
  · cases htake
    refine ⟨⟨fun y hy => h.free y (mem_of_mem_erase hy), h.nodup.erase x, h.made,
      fun y hy => h.free_made y (mem_of_mem_erase hy)⟩, h.free x hfree, ?_,
      h.free_made x hfree⟩
    exact h.nodup.not_mem_erase
  · cases htake
    refine ⟨⟨h.free, h.nodup, fun y hy => mem_cons_of_mem x (h.made y hy),
      fun y hy => mem_cons_of_mem x (h.free_made y hy)⟩, ?_, hfree, mem_cons_self⟩
    exact not_not.mp fun hseat => hmade (h.made x hseat)

/-- An object outside the pool gets a seat. -/
lemma occupy (h : Seated p seat) (hfree : x ∉ p.free) (hmade : x ∈ p.made) (place : σ) :
    Seated p (update seat x (some place)) := by
  refine ⟨fun y hy => ?_, h.nodup, fun y hy => ?_, h.free_made⟩
  · have hne : y ≠ x := fun heq => hfree (heq ▸ hy)
    rw [update_of_ne hne]
    exact h.free y hy
  · by_cases hyx : y = x
    · exact hyx ▸ hmade
    · rw [update_of_ne hyx] at hy
      exact h.made y hy

omit [DecidableEq ω] in
/-- An object that has a seat is not in the pool. -/
lemma not_free (h : Seated p seat) (hseat : seat x ≠ none) : x ∉ p.free :=
  fun hfree => hseat (h.free x hfree)

/-- An object loses its seat and is put back. -/
lemma put (h : Seated p seat) (hseat : seat x ≠ none) (kept : Bool) :
    Seated (p.put x kept) (update seat x none) := by
  have hmade : ∀ y, update seat x none y ≠ none → y ∈ p.made := fun y hy => by
    by_cases hyx : y = x
    · rw [hyx, update_self] at hy
      exact absurd rfl hy
    · rw [update_of_ne hyx] at hy
      exact h.made y hy
  have hfree : ∀ y ∈ p.free, update seat x none y = none := fun y hy => by
    rw [update_apply]
    split_ifs
    · rfl
    · exact h.free y hy
  cases kept with
  | false => exact ⟨hfree, h.nodup, hmade, h.free_made⟩
  | true =>
    refine ⟨fun y hy => ?_, ?_, hmade, fun y hy => ?_⟩
    · rcases mem_append.mp hy with hy | hy
      · exact hfree y hy
      · rw [mem_singleton.mp hy]
        exact update_self ..
    · exact h.nodup.append (nodup_singleton x) (by
        rw [disjoint_singleton]
        exact h.not_free hseat)
    · rcases mem_append.mp hy with hy | hy
      · exact h.free_made y hy
      · rw [mem_singleton.mp hy]
        exact h.made x hseat

end Seated
end GoAkt.Pools
