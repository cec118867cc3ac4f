import Mathlib.Tactic

/-!
# Fallible computations

A computation that succeeds with a value or fails with a text. A sequence of
computations succeeds exactly when each of its steps does, so a success is taken
apart into its steps, and a loop over a list into its visits.
-/
namespace GoAkt.Fallible

universe u v

section Steps
variable {ε : Type*} {α β : Type u}

lemma bind_eq_ok (x : Except ε α) (f : α → Except ε β) (r : β) :
    (x >>= f) = .ok r ↔ ∃ a, x = .ok a ∧ f a = .ok r := by
  cases x with
  | error err | ok a => simp [bind, Except.bind]

@[simp] lemma ok_bind (a : α) (f : α → Except ε β) : (.ok a >>= f : Except ε β) = f a := rfl

@[simp] lemma error_bind (err : ε) (f : α → Except ε β) :
    (.error err >>= f : Except ε β) = .error err := rfl

lemma pure_eq_ok (a r : α) : (pure a : Except ε α) = .ok r ↔ a = r := by
  simp [pure, Except.pure]

/-- An error wrapped in a context. -/
def wrap (context : String) (result : Except String α) : Except String α :=
  result.mapError fun err => context ++ ": " ++ err

@[simp] lemma wrap_eq_ok (context : String) (result : Except String α) (a : α) :
    wrap context result = .ok a ↔ result = .ok a := by
  cases result <;> simp [wrap, Except.mapError]

end Steps

section Loops
variable {ε : Type*} {α : Type u} {β : Type v}

lemma mapM_cons_eq_ok (f : α → Except ε β) (x : α) (l : List α) (r : List β) :
    (x :: l).mapM f = .ok r ↔ ∃ y ys, f x = .ok y ∧ l.mapM f = .ok ys ∧ r = y :: ys := by
  rw [List.mapM_cons]
  simp only [bind_eq_ok, pure_eq_ok]
  constructor
  · rintro ⟨y, hy, ys, hys, rfl⟩
    exact ⟨y, ys, hy, hys, rfl⟩
  · rintro ⟨y, ys, hy, hys, rfl⟩
    exact ⟨y, hy, ys, hys, rfl⟩

lemma mapM_nil_eq_ok (f : α → Except ε β) (r : List β) : ([] : List α).mapM f = .ok r ↔ r = [] := by
  rw [List.mapM_nil, pure_eq_ok, eq_comm]

/-- A loop whose visits can be undone can be undone. -/
lemma mapM_of_mapM {f : α → Except ε β} {g : β → Except ε α} {l : List α} {r : List β}
    (hundo : ∀ x ∈ l, ∀ y, f x = .ok y → g y = .ok x) (hr : l.mapM f = .ok r) :
    r.mapM g = .ok l := by
  induction l generalizing r with
  | nil =>
    rw [(mapM_nil_eq_ok f r).mp hr, mapM_nil_eq_ok]
  | cons x l ih =>
    obtain ⟨y, ys, hy, hys, rfl⟩ := (mapM_cons_eq_ok f x l r).mp hr
    obtain ⟨hx, hl⟩ := List.forall_mem_cons.mp hundo
    exact (mapM_cons_eq_ok g y ys (x :: l)).mpr ⟨x, l, hx y hy, ih hl hys, rfl⟩

end Loops
end GoAkt.Fallible
