import Mathlib.Tactic

/-!
# Joins up to an observational equivalence

A merge function of replicated values is a semilattice join only on the values
that are really produced, and only up to what an observer can distinguish.
`JoinOn S eqv join` states both restrictions. The order `Below` it induces makes
a whole list of joins independent of order and repetition, and lifting a join to
optional values gives the join of values that may be absent.
-/
namespace GoAkt.Joins
variable {α : Type*}

/-- On the closed class `S`, `join` is commutative, associative and idempotent
up to `eqv`, which it respects. -/
structure JoinOn (S : α → Prop) (eqv : α → α → Prop) (join : α → α → α) : Prop where
  equivalence : Equivalence eqv
  closed : ∀ {a b}, S a → S b → S (join a b)
  congr : ∀ {a a' b b'}, S a → S a' → S b → S b' → eqv a a' → eqv b b' → eqv (join a b) (join a' b')
  comm : ∀ {a b}, S a → S b → eqv (join a b) (join b a)
  assoc : ∀ {a b c}, S a → S b → S c → eqv (join (join a b) c) (join a (join b c))
  idem : ∀ {a}, S a → eqv (join a a) a

/-- The second value already absorbs the first. -/
def Below (eqv : α → α → Prop) (join : α → α → α) (a b : α) : Prop := eqv (join a b) b

namespace JoinOn
variable {S : α → Prop} {eqv : α → α → Prop} {join : α → α → α}

lemma refl (J : JoinOn S eqv join) (a : α) : eqv a a := J.equivalence.refl a

variable {a b : α}

section
variable (J : JoinOn S eqv join)
include J

lemma symm (h : eqv a b) : eqv b a := J.equivalence.symm h

variable {a b c : α}

lemma trans (h : eqv a b) (h' : eqv b c) : eqv a c := J.equivalence.trans h h'

lemma below_congr {a a' b b' : α} (ha : S a) (ha' : S a')
    (hb : S b) (hb' : S b') (h : eqv a a') (k : eqv b b') :
    Below eqv join a b ↔ Below eqv join a' b' := by
  have hjoin := J.congr ha ha' hb hb' h k
  constructor
  · intro hab
    exact J.trans (J.symm hjoin) (J.trans hab k)
  · intro hab
    exact J.trans hjoin (J.trans hab (J.symm k))

section
variable (ha : S a) (hb : S b)
include ha hb

lemma below_trans (hc : S c)
    (hab : Below eqv join a b) (hbc : Below eqv join b c) : Below eqv join a c := by
  have hjoin : eqv (join a c) (join a (join b c)) :=
    J.congr ha ha hc (J.closed hb hc) (J.refl a) (J.symm hbc)
  have hassoc : eqv (join a (join b c)) (join (join a b) c) := J.symm (J.assoc ha hb hc)
  have habsorb : eqv (join (join a b) c) (join b c) :=
    J.congr (J.closed ha hb) hb hc hc hab (J.refl c)
  exact J.trans hjoin (J.trans hassoc (J.trans habsorb hbc))

lemma below_antisymm (hab : Below eqv join a b) (hba : Below eqv join b a) : eqv a b :=
  J.trans (J.symm hba) (J.trans (J.comm hb ha) hab)

lemma below_join_left : Below eqv join a (join a b) :=
  J.trans (J.symm (J.assoc ha ha hb)) (J.congr (J.closed ha ha) ha hb hb (J.idem ha) (J.refl b))

lemma below_join_right : Below eqv join b (join a b) :=
  (J.below_congr hb hb (J.closed ha hb) (J.closed hb ha) (J.refl b) (J.comm ha hb)).mpr
    (J.below_join_left hb ha)

lemma join_below_iff (hc : S c) :
    Below eqv join (join a b) c ↔ Below eqv join a c ∧ Below eqv join b c := by
  constructor
  · intro h
    exact ⟨J.below_trans ha (J.closed ha hb) hc (J.below_join_left ha hb) h,
      J.below_trans hb (J.closed ha hb) hc (J.below_join_right ha hb) h⟩
  · rintro ⟨hac, hbc⟩
    have hstep := J.congr ha ha (J.closed hb hc) hc (J.refl a) hbc
    exact J.trans (J.assoc ha hb hc) (J.trans hstep hac)

/-- Joining changes nothing exactly when the other value is already absorbed. -/
theorem join_eqv_left_iff : eqv a (join a b) ↔ Below eqv join b a := by
  constructor
  · intro h
    exact J.trans (J.comm hb ha) (J.symm h)
  · intro h
    exact J.trans (J.symm h) (J.comm hb ha)

/-- A join that is made only sometimes is the full join exactly if it is made or
would change nothing. -/
theorem ite_join_eqv_iff {p : Prop} [Decidable p] :
    eqv (if p then join a b else a) (join a b) ↔ p ∨ Below eqv join b a := by
  split_ifs with h
  · simpa [h] using J.refl (join a b)
  · simpa [h] using J.join_eqv_left_iff ha hb

end

/-- Two replicas in turn join the other's value, each only under a condition. Both
end with the full join exactly if each made its join or had nothing to gain. -/
theorem exchange_eqv_iff {p q : Prop} [Decidable p] [Decidable q]
    {a b a' b' : α} (ha : S a) (hb : S b) (ha' : S a')
    (hfirst : eqv a' (if p then join a b else a))
    (hsecond : eqv b' (if q then join b a' else b)) :
    (eqv a' (join a b) ∧ eqv b' (join a b)) ↔
      (p ∨ Below eqv join b a) ∧ (q ∨ Below eqv join a b) := by
  have hleft : eqv a' (join a b) ↔ p ∨ Below eqv join b a := by
    rw [← J.ite_join_eqv_iff ha hb]
    exact ⟨fun h => J.trans (J.symm hfirst) h, fun h => J.trans hfirst h⟩
  rw [← hleft]
  refine and_congr_right fun hfull => ?_
  have hall : eqv (join b a') (join a b) :=
    J.trans (J.congr hb hb ha' (J.closed ha hb) (J.refl b) hfull) (J.below_join_right ha hb)
  have hgain : Below eqv join a' b ↔ Below eqv join a b := by
    rw [J.below_congr ha' (J.closed ha hb) hb hb hfull (J.refl b), J.join_below_iff ha hb hb]
    exact and_iff_left (J.idem hb)
  rw [← hgain, ← J.ite_join_eqv_iff hb ha']
  constructor
  · intro h
    exact J.trans (J.symm hsecond) (J.trans h (J.symm hall))
  · intro h
    exact J.trans hsecond (J.trans h hall)

lemma foldl_closed {l : List α} (hl : ∀ x ∈ l, S x) {a : α} (ha : S a) : S (l.foldl join a) := by
  induction l generalizing a with
  | nil => exact ha
  | cons x l ih =>
    exact ih (fun y hy => hl y (List.mem_cons_of_mem x hy)) (J.closed ha (hl x List.mem_cons_self))

/-- A value equals a join it takes part in exactly when it absorbs the others. -/
theorem eqv_join_join_iff {a b c : α} (ha : S a) (hb : S b) (hc : S c) :
    eqv c (join a (join b c)) ↔ Below eqv join a c ∧ Below eqv join b c := by
  rw [← J.join_below_iff ha hb hc]
  constructor
  · intro h
    exact J.trans (J.assoc ha hb hc) (J.symm h)
  · intro h
    exact J.trans (J.symm h) (J.assoc ha hb hc)

/-- A list of joins is the least upper bound of everything it joins. -/
theorem foldl_below_iff {l : List α} (hl : ∀ x ∈ l, S x) {a u : α} (ha : S a) (hu : S u) :
    Below eqv join (l.foldl join a) u ↔ Below eqv join a u ∧ ∀ x ∈ l, Below eqv join x u := by
  induction l generalizing a with
  | nil => simp
  | cons x l ih =>
    have hx : S x := hl x List.mem_cons_self
    rw [List.foldl_cons, ih (fun y hy => hl y (List.mem_cons_of_mem x hy)) (J.closed ha hx),
      J.join_below_iff ha hx hu]
    simp only [List.mem_cons, forall_eq_or_imp]
    tauto

/-- Joining two lists with the same members gives equivalent results: neither
order nor repetition matters. -/
theorem foldl_eqv_of_same_members {l l' : List α}
    (hl : ∀ x ∈ l, S x) (hmem : ∀ x, x ∈ l ↔ x ∈ l') {a : α} (ha : S a) :
    eqv (l.foldl join a) (l'.foldl join a) := by
  have hl' : ∀ x ∈ l', S x := fun x hx => hl x ((hmem x).mpr hx)
  have hu := J.foldl_closed hl ha
  have hu' := J.foldl_closed hl' ha
  obtain ⟨hau, hlu⟩ := (J.foldl_below_iff hl ha hu).mp (J.idem hu)
  obtain ⟨hau', hlu'⟩ := (J.foldl_below_iff hl' ha hu').mp (J.idem hu')
  refine J.below_antisymm hu hu' ?_ ?_
  · exact (J.foldl_below_iff hl ha hu').mpr ⟨hau', fun x hx => hlu' x ((hmem x).mp hx)⟩
  · exact (J.foldl_below_iff hl' ha hu).mpr ⟨hau, fun x hx => hlu x ((hmem x).mpr hx)⟩

end
end JoinOn

/-- Join of two values either of which may be absent. -/
def joinOption (join : α → α → α) : Option α → Option α → Option α
  | none, b => b
  | some a, none => some a
  | some a, some b => some (join a b)

section
variable (join : α → α → α)
include join

@[simp] lemma joinOption_none_left (b : Option α) : joinOption join none b = b := rfl

@[simp] lemma joinOption_none_right (a : Option α) :
    joinOption join a none = a := by cases a <;> rfl

@[simp] lemma joinOption_some (a b : α) : joinOption join (some a) (some b) = some (join a b) := rfl

@[simp] lemma joinOption_eq_none (a b : Option α) :
    joinOption join a b = none ↔ a = none ∧ b = none := by
  cases a <;> cases b <;> simp

end

variable {eqv : α → α → Prop}

lemma optionRel_equivalence (h : Equivalence eqv) : Equivalence (Option.Rel eqv) where
  refl a := by
    cases a with
    | none => exact .none
    | some a => exact .some (h.refl a)
  symm hab := by
    cases hab with
    | none => exact .none
    | some hab => exact .some (h.symm hab)
  trans hab hbc := by
    cases hab with
    | none => exact hbc
    | some hab =>
      cases hbc with
      | some hbc => exact .some (h.trans hab hbc)

lemma below_option_some {join : α → α → α} (hrefl : ∀ a, eqv a a) (o : Option α) (b : α) :
    Below (Option.Rel eqv) (joinOption join) o (some b) ↔ ∀ a ∈ o, Below eqv join a b := by
  cases o with
  | none => simpa [Below] using Option.Rel.some (hrefl b)
  | some a =>
    constructor
    · rintro (h | _)
      rintro a' ⟨⟩
      exact h
    · intro h
      exact .some (h a rfl)

/-- Absence is a bottom element: joins lift from values to optional values. -/
theorem JoinOn.option {S : α → Prop} {join : α → α → α} (J : JoinOn S eqv join) :
    JoinOn (fun o : Option α => ∀ a ∈ o, S a) (Option.Rel eqv) (joinOption join) where
  equivalence := optionRel_equivalence J.equivalence
  closed := by
    intro a b ha hb
    cases a <;> cases b <;> simp_all [J.closed]
  congr := by
    intro a a' b b' ha ha' hb hb' haa hbb
    cases haa with
    | none => simpa using hbb
    | some haa =>
      cases hbb with
      | none => exact .some haa
      | some hbb => exact .some (J.congr (ha _ rfl) (ha' _ rfl) (hb _ rfl) (hb' _ rfl) haa hbb)
  comm := by
    intro a b ha hb
    cases a with
    | none => simpa using (optionRel_equivalence J.equivalence).refl b
    | some a =>
      cases b with
      | none => exact .some (J.refl a)
      | some b => exact .some (J.comm (ha a rfl) (hb b rfl))
  assoc := by
    intro a b c ha hb hc
    have hrefl := (optionRel_equivalence J.equivalence).refl
    cases a with
    | none => exact hrefl _
    | some a =>
      cases b with
      | none => exact hrefl _
      | some b =>
        cases c with
        | none => exact hrefl _
        | some c => exact .some (J.assoc (ha a rfl) (hb b rfl) (hc c rfl))
  idem := by
    intro a ha
    cases a with
    | none => exact .none
    | some a => exact .some (J.idem (ha a rfl))

end GoAkt.Joins
