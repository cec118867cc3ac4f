import Mathlib.Tactic

/-!
# One token and its holder

A flag says that a token is out. Whoever sets the flag holds the token, it may be handed
on, and whoever clears the flag holds it no longer. So the flag is set exactly while there
is one holder.
-/
namespace GoAkt.Tokens
variable {η : Type*} {present present' : Prop} {holds holds' : η → Prop}

/-- The token has one holder while it is out, and none otherwise. -/
structure Exclusive (present : Prop) (holds : η → Prop) : Prop where
  one : present → ∃! h, holds h
  none : ¬present → ∀ h, ¬holds h

variable {h : η}

section
variable (hex : Exclusive present holds)
include hex

lemma Exclusive.isPresent (hh : holds h) : present := by_contra fun hnot => hex.none hnot h hh

lemma Exclusive.unique {h h' : η} (hh : holds h) (hh' : holds h') : h = h' :=
  (hex.one (hex.isPresent hh)).unique hh hh'

/-- Nobody hands the token on. -/
lemma Exclusive.same (hpresent : present' ↔ present)
    (hholds : ∀ h, holds' h ↔ holds h) : Exclusive present' holds' where
  one hp := by
    obtain ⟨h, hh, hunique⟩ := hex.one (hpresent.mp hp)
    exact ⟨h, (hholds h).mpr hh, fun h' hh' => hunique h' ((hholds h').mp hh')⟩
  none hp h hh := hex.none (fun hp' => hp (hpresent.mpr hp')) h ((hholds h).mp hh)

lemma Exclusive.acquire (hnot : ¬present) (hnew : present')
    (hh : holds' h) (hothers : ∀ h', holds' h' → h' = h ∨ holds h') :
    Exclusive present' holds' where
  one _ := by
    refine ⟨h, hh, fun h' hh' => ?_⟩
    rcases hothers h' hh' with heq | hold
    · exact heq
    · exact absurd hold (hex.none hnot h')
  none hp := absurd hnew hp

lemma Exclusive.release (hnew : ¬present')
    (hh : holds h) (hnot : ¬holds' h) (hothers : ∀ h', holds' h' → holds h') :
    Exclusive present' holds' where
  one hp := absurd hp hnew
  none _ h' hh' := by
    cases hex.unique hh (hothers h' hh')
    exact hnot hh'

lemma Exclusive.move (hpresent : present' ↔ present) {h h' : η}
    (hh : holds h) (hh' : holds' h') (hothers : ∀ k, holds' k → k = h' ∨ holds k ∧ k ≠ h) :
    Exclusive present' holds' where
  one _ := by
    refine ⟨h', hh', fun k hk => ?_⟩
    rcases hothers k hk with heq | ⟨hold, hne⟩
    · exact heq
    · exact absurd (hex.unique hold hh) hne
  none hp := absurd (hpresent.mpr (hex.isPresent hh)) hp

end
end GoAkt.Tokens
