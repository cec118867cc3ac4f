import GoAkt.Reentrancy

/-!
# Limits, stashed messages and continuations

Beside the books there are three things to follow. The number of requests in flight stays
within its limit, because it is only raised by a compare-and-swap from below the limit.
Messages are only held while something blocks the actor or somebody is returning them. A
continuation is owed from the moment its request is completed and until it is invoked, by
the one call that has it.
-/
namespace GoAkt.Actor
open GoAkt.Interleavings Function
namespace Reentrancy
variable {τ ι ρ μ : Type*} [DecidableEq τ] {pcs : τ → Pc ι ρ μ} {t : τ} {pc : Pc ι ρ μ}

/-! ### The limit -/

structure Limited (maxInFlight : ℕ) (inFlight : ℤ) (pcs : τ → Pc ι ρ μ) : Prop where
  bound : 0 < maxInFlight → inFlight ≤ maxInFlight
  seen : ∀ t r current, pcs t = .swap r current → current < maxInFlight

lemma Limited.goto {maxInFlight : ℕ} {inFlight : ℤ} (h : Limited maxInFlight inFlight pcs)
    (hpc : ∀ r current, pc = .swap r current → current < maxInFlight) :
    Limited maxInFlight inFlight (update pcs t pc) := by
  refine ⟨h.bound, fun t' r current hswap => ?_⟩
  by_cases ht : t' = t
  · subst ht
    rw [update_self] at hswap
    exact hpc r current hswap
  · rw [update_of_ne ht] at hswap
    exact h.seen t' r current hswap

omit [DecidableEq τ] in
lemma Limited.change {maxInFlight : ℕ} {inFlight inFlight' : ℤ}
    (h : Limited maxInFlight inFlight pcs)
    (hbound : 0 < maxInFlight → inFlight ≤ maxInFlight → inFlight' ≤ maxInFlight) :
    Limited maxInFlight inFlight' pcs :=
  ⟨fun hpos => hbound hpos (h.bound hpos), h.seen⟩

/-! ### Stashed messages -/

/-- Messages are held only while something blocks the actor or they are being returned. -/
def Released (held : List μ) (blocking : ℤ) (pcs : τ → Pc ι ρ μ) : Prop :=
  held ≠ [] → 0 < blocking ∨ ∃ t after, pcs t = .unstash after

lemma Released.goto {held : List μ} {blocking : ℤ} (h : Released held blocking pcs)
    (hpc : ∀ after, pcs t ≠ .unstash after) :
    Released held blocking (update pcs t pc) := by
  intro hheld
  rcases h hheld with hblocking | ⟨t', after, hunstash⟩
  · exact .inl hblocking
  · refine .inr ⟨t', after, ?_⟩
    rw [update_of_ne]
    · exact hunstash
    · rintro rfl
      exact hpc after hunstash

/-! ### Continuations -/

/-- The continuation that a call still has to invoke. -/
def carry : Pc ι ρ μ → Option (ι × ρ)
  | .lookup _ after | .delete _ after | .uncount _ after | .unblock _ after | .unstash after
  | .notify after => after
  | _ => none

structure Promises (request : ι → RequestState ρ) (pcs : τ → Pc ι ρ μ) : Prop where
  unique : ∀ t t' r o o', carry (pcs t) = some (r, o) → carry (pcs t') = some (r, o') → t = t'
  owed : ∀ t r o, carry (pcs t) = some (r, o) →
    (request r).callback = true ∧ (request r).outcome = some o ∧ (request r).invoked = []
  kept : ∀ r o, (request r).callback = true → (request r).outcome = some o →
    (request r).invoked = [o] ∨ (request r).invoked = [] ∧ ∃ t, carry (pcs t) = some (r, o)
  quiet : ∀ r, (request r).callback = false ∨ (request r).outcome = none → (request r).invoked = []

lemma carry_update (t' : τ) :
    carry (update pcs t pc t') = if t' = t then carry pc else carry (pcs t') := by
  split_ifs with ht
  · subst ht
    rw [update_self]
  · rw [update_of_ne ht]

namespace Promises
variable [DecidableEq ι] {request : ι → RequestState ρ} {r : ι} {o : ρ}

omit [DecidableEq ι] in
lemma goto (h : Promises request pcs) (hcarry : carry (pcs t) = carry pc) :
    Promises request (update pcs t pc) := by
  have hsame : ∀ t', carry (update pcs t pc t') = carry (pcs t') := by
    intro t'
    rw [carry_update]
    split_ifs with ht
    · rw [ht, hcarry]
    · rfl
  refine ⟨fun t₁ t₂ r o o' h₁ h₂ => ?_, fun t' r o ht' => ?_, fun r o hcallback houtcome => ?_,
    h.quiet⟩
  · rw [hsame] at h₁ h₂
    exact h.unique t₁ t₂ r o o' h₁ h₂
  · rw [hsame] at ht'
    exact h.owed t' r o ht'
  · rcases h.kept r o hcallback houtcome with hdone | ⟨hnone, t', ht'⟩
    · exact .inl hdone
    · exact .inr ⟨hnone, t', (hsame t').trans ht'⟩

variable {state : RequestState ρ}

section
variable (h : Promises request pcs)
include h

omit [DecidableEq τ] in
/-- One request changes, and the calls go on with those of the others. -/
lemma change {pcs' : τ → Pc ι ρ μ} (hothers : ∀ t r' o, r' ≠ r →
      (carry (pcs' t) = some (r', o) ↔ carry (pcs t) = some (r', o)))
    (hunique : ∀ t t' o o', carry (pcs' t) = some (r, o) → carry (pcs' t') = some (r, o') → t = t')
    (howed : ∀ t o, carry (pcs' t) = some (r, o) →
      state.callback = true ∧ state.outcome = some o ∧ state.invoked = [])
    (hkept : ∀ o, state.callback = true → state.outcome = some o →
      state.invoked = [o] ∨ state.invoked = [] ∧ ∃ t, carry (pcs' t) = some (r, o))
    (hquiet : state.callback = false ∨ state.outcome = none → state.invoked = []) :
    Promises (update request r state) pcs' := by
  refine ⟨fun t t' r' o o' ht ht' => ?_, fun t r' o ht => ?_, fun r' o => ?_, fun r' => ?_⟩
  all_goals by_cases hr : r' = r
  · subst hr
    exact hunique t t' o o' ht ht'
  · exact h.unique t t' r' o o' ((hothers t r' o hr).mp ht) ((hothers t' r' o' hr).mp ht')
  · subst hr
    rw [update_self]
    exact howed t o ht
  · rw [update_of_ne hr]
    exact h.owed t r' o ((hothers t r' o hr).mp ht)
  · subst hr
    rw [update_self]
    exact hkept o
  · simp only [update_of_ne hr, hothers _ r' o hr]
    exact h.kept r' o
  · subst hr
    rw [update_self]
    exact hquiet
  · rw [update_of_ne hr]
    exact h.quiet r'

omit [DecidableEq τ] in
lemma setRequest (hcallback : state.callback = (request r).callback)
    (houtcome : state.outcome = (request r).outcome)
    (hinvoked : state.invoked = (request r).invoked) : Promises (update request r state) pcs := by
  refine h.change (fun _ _ _ _ => Iff.rfl) (fun t t' => h.unique t t' r) ?_ ?_ ?_
  all_goals rw [hcallback, houtcome, hinvoked]
  · exact fun t => h.owed t r
  · exact h.kept r
  · exact h.quiet r

omit [DecidableEq τ] in
/-- A request that is not both completed and waited for owes nothing. -/
lemma reset (hfree : ∀ t o, carry (pcs t) ≠ some (r, o))
    (hopen : state.callback = false ∨ state.outcome = none) (hinvoked : state.invoked = []) :
    Promises (update request r state) pcs := by
  refine h.change (fun _ _ _ _ => Iff.rfl) (fun t _ o _ ht => absurd ht (hfree t o))
    (fun t o ht => absurd ht (hfree t o)) (fun o hcallback houtcome => ?_) fun _ => hinvoked
  rcases hopen with hclosed | hnone
  · cases hclosed.symm.trans hcallback
  · cases hnone.symm.trans houtcome

/-- The call that completes a request, or that finds it completed, owes the continuation. -/
lemma promise (hopen : (request r).callback = false ∨ (request r).outcome = none)
    (hcarry : carry (pcs t) = none) (hpc : carry pc = some (r, o))
    (hcallback : state.callback = true)
    (houtcome : state.outcome = some o) (hinvoked : state.invoked = (request r).invoked) :
    Promises (update request r state) (update pcs t pc) := by
  have hmine : ∀ t' o', carry (update pcs t pc t') = some (r, o') → t' = t ∧ o = o' := by
    intro t' o' ht'
    rw [carry_update] at ht'
    split_ifs at ht' with ht
    · cases hpc.symm.trans ht'
      exact ⟨ht, rfl⟩
    · obtain ⟨hyes, hsome, -⟩ := h.owed t' r o' ht'
      rcases hopen with hno | hnone
      · cases hno.symm.trans hyes
      · cases hnone.symm.trans hsome
  have hempty : state.invoked = [] := hinvoked.trans (h.quiet r hopen)
  refine h.change (fun t' r' o' hr => ?_)
    (fun t₁ t₂ o₁ o₂ h₁ h₂ => (hmine t₁ o₁ h₁).1.trans (hmine t₂ o₂ h₂).1.symm)
    (fun t' o' ht' => ⟨hcallback, (hmine t' o' ht').2 ▸ houtcome, hempty⟩)
    (fun o' _ hsome => ?_) fun _ => hempty
  · rw [carry_update]
    split_ifs with ht
    · simp [ht, hpc, hcarry, hr.symm]
    · rfl
  · cases houtcome.symm.trans hsome
    exact .inr ⟨hempty, t, by rw [update_self, hpc]⟩

/-- The continuation is invoked, and the call owes it no more. -/
lemma keep (hcarry : carry (pcs t) = some (r, o)) (hpc : carry pc = none) :
    Promises (update request r
      { request r with invoked := (request r).invoked ++ [o] }) (update pcs t pc) := by
  obtain ⟨hcallback, houtcome, hinvoked⟩ := h.owed t r o hcarry
  have hfree : ∀ t' o', carry (update pcs t pc t') ≠ some (r, o') := by
    intro t' o' ht'
    rw [carry_update] at ht'
    split_ifs at ht' with ht
    · cases hpc.symm.trans ht'
    · exact ht (h.unique t' t r o' o ht' hcarry)
  refine h.change (fun t' r' o' hr => ?_) (fun t₁ _ o₁ _ h₁ => absurd h₁ (hfree t₁ o₁))
    (fun t' o' ht' => absurd ht' (hfree t' o')) (fun o' _ hsome => ?_) fun hquiet => ?_
  · rw [carry_update]
    split_ifs with ht
    · simp [ht, hpc, hcarry, hr.symm]
    · rfl
  · cases houtcome.symm.trans hsome
    refine .inl ?_
    rw [hinvoked]
    rfl
  · rcases hquiet with hno | hnone
    · exact nomatch hcallback.symm.trans hno
    · exact nomatch houtcome.symm.trans hnone

end
end Promises

/-! ### From the table to the outcome -/

/-- What a call is about to do with a request of the table. -/
inductive Task
  | sending
  | deciding
  | leaving
deriving DecidableEq

def taskOf : Pc ι ρ μ → Option (ι × Task)
  | .send r => some (r, .sending)
  | .complete r _ | .cancel _ r _ => some (r, .deciding)
  | .lookup r _ | .delete r _ | .remove _ r _ => some (r, .leaving)
  | _ => none

/-- The request has been on the table. -/
def placed : Status τ → Bool
  | .listed | .gone | .owned _ .removing | .owned _ .unblocking => true
  | _ => false

structure Settled (request : ι → RequestState ρ) (status : ι → Status τ) (pcs : τ → Pc ι ρ μ) :
    Prop where
  sending : ∀ t r, taskOf (pcs t) = some (r, .sending) →
    (request r).sent = none ∧ placed (status r) = true
  sender : ∀ t t' r, taskOf (pcs t) = some (r, .sending) → taskOf (pcs t') = some (r, .sending) →
    t = t'
  deciding : ∀ t r, taskOf (pcs t) = some (r, .deciding) → placed (status r) = true
  leaving : ∀ t r, taskOf (pcs t) = some (r, .leaving) →
    (request r).outcome ≠ none ∨ (request r).sent = some false
  sent : ∀ r, (request r).sent ≠ none → placed (status r) = true
  completed : ∀ r, (request r).outcome ≠ none → placed (status r) = true
  left : ∀ r, placed (status r) = true → status r ≠ .listed →
    (request r).outcome ≠ none ∨ (request r).sent = some false
  doomed : ∀ r, (request r).outcome ≠ none → status r = .listed →
    ∃ t, taskOf (pcs t) = some (r, .leaving)
  returned : ∀ r, (request r).callback = true → (request r).sent = some true

lemma taskOf_update (t' : τ) :
    taskOf (update pcs t pc t') = if t' = t then taskOf pc else taskOf (pcs t') := by
  split_ifs with ht
  · subst ht
    rw [update_self]
  · rw [update_of_ne ht]

namespace Settled
variable [DecidableEq ι] {request : ι → RequestState ρ} {status : ι → Status τ} {r : ι}

section
omit [DecidableEq ι]

section
variable (h : Settled request status pcs)
include h

/-- A call goes on to another task. It leaves a request that is on its way out only when
that is off the table. -/
lemma turn (hsending : ∀ r, taskOf pc = some (r, .sending) →
      (request r).sent = none ∧ placed (status r) = true ∧
        ∀ t', taskOf (pcs t') ≠ some (r, .sending))
    (hdeciding : ∀ r, taskOf pc = some (r, .deciding) → placed (status r) = true)
    (hleaving : ∀ r, taskOf pc = some (r, .leaving) →
      (request r).outcome ≠ none ∨ (request r).sent = some false)
    (hleft : ∀ r, taskOf (pcs t) = some (r, .leaving) →
      taskOf pc = some (r, .leaving) ∨ status r ≠ .listed) :
    Settled request status (update pcs t pc) where
  sending t' r ht' := by
    rw [taskOf_update] at ht'
    split_ifs at ht'
    · exact ⟨(hsending r ht').1, (hsending r ht').2.1⟩
    · exact h.sending t' r ht'
  sender t₁ t₂ r h₁ h₂ := by
    rw [taskOf_update] at h₁ h₂
    split_ifs at h₁ h₂ with ht₁ ht₂ ht₂
    · exact ht₁.trans ht₂.symm
    · exact absurd h₂ ((hsending r h₁).2.2 t₂)
    · exact absurd h₁ ((hsending r h₂).2.2 t₁)
    · exact h.sender t₁ t₂ r h₁ h₂
  deciding t' r ht' := by
    rw [taskOf_update] at ht'
    split_ifs at ht'
    · exact hdeciding r ht'
    · exact h.deciding t' r ht'
  leaving t' r ht' := by
    rw [taskOf_update] at ht'
    split_ifs at ht'
    · exact hleaving r ht'
    · exact h.leaving t' r ht'
  sent := h.sent
  completed := h.completed
  left := h.left
  doomed r houtcome hlisted := by
    obtain ⟨t', ht'⟩ := h.doomed r houtcome hlisted
    by_cases ht : t' = t
    · subst ht
      refine ⟨t', ?_⟩
      rw [taskOf_update, if_pos rfl]
      exact (hleft r ht').resolve_right fun hne => hne hlisted
    · exact ⟨t', by rw [taskOf_update, if_neg ht]; exact ht'⟩
  returned := h.returned

/-- A call that does nothing with the table goes on to no task. -/
lemma rest (hpc : taskOf pc = none)
    (hleft : ∀ r, taskOf (pcs t) = some (r, .leaving) → status r ≠ .listed) :
    Settled request status (update pcs t pc) :=
  h.turn (fun _ hr => (nomatch hpc.symm.trans hr)) (fun _ hr => (nomatch hpc.symm.trans hr))
    (fun _ hr => (nomatch hpc.symm.trans hr)) fun r hr => .inr (hleft r hr)

lemma goto (hold : taskOf (pcs t) = none)
    (hpc : taskOf pc = none) : Settled request status (update pcs t pc) :=
  h.rest hpc fun _ hr => (nomatch hold.symm.trans hr)

end
end

section
variable (h : Settled request status pcs)
include h

omit [DecidableEq τ] in
lemma setStatus {now : Status τ} (hplaced : placed (status r) = true → placed now = true)
    (hleft : placed now = true → now ≠ .listed →
      (request r).outcome ≠ none ∨ (request r).sent = some false)
    (hput : now = .listed → (request r).outcome = none) :
    Settled request (update status r now) pcs := by
  have hmono : ∀ r', placed (status r') = true → placed (update status r now r') = true :=
    (forall_update_iff status fun r' st => placed (status r') = true → placed st = true).mpr
      ⟨hplaced, fun _ _ => id⟩
  refine ⟨fun t r' ht => ⟨(h.sending t r' ht).1, hmono r' (h.sending t r' ht).2⟩, h.sender,
    fun t r' ht => hmono r' (h.deciding t r' ht), h.leaving, fun r' hr' => hmono r' (h.sent r' hr'),
    fun r' hr' => hmono r' (h.completed r' hr'), fun r' hr' hne => ?_,
    fun r' houtcome hlisted => ?_, h.returned⟩
  · by_cases hr : r' = r
    · subst hr
      rw [update_self] at hr' hne
      exact hleft hr' hne
    · rw [update_of_ne hr] at hr' hne
      exact h.left r' hr' hne
  · by_cases hr : r' = r
    · subst hr
      rw [update_self] at hlisted
      exact absurd (hput hlisted) houtcome
    · rw [update_of_ne hr] at hlisted
      exact h.doomed r' houtcome hlisted

omit [DecidableEq τ] in
lemma setRequest {state : RequestState ρ}
    (houtcome : state.outcome = (request r).outcome) (hsent : state.sent = (request r).sent)
    (hcallback : state.callback = true → state.sent = some true) :
    Settled (update request r state) status pcs := by
  -- only these three fields matter
  have hsame := (forall_update_iff request fun r' st => st.outcome = (request r').outcome ∧
    st.sent = (request r').sent ∧ (st.callback = true → st.sent = some true)).mpr
      ⟨⟨houtcome, hsent, hcallback⟩, fun r' _ => ⟨rfl, rfl, h.returned r'⟩⟩
  refine ⟨fun t r ht => ?_, h.sender, h.deciding, fun t r ht => ?_, fun r hr => ?_,
    fun r hr => ?_, fun r hr hne => ?_, fun r hr hlisted => ?_, fun r => (hsame r).2.2⟩
  · rw [(hsame r).2.1]
    exact h.sending t r ht
  · rw [(hsame r).1, (hsame r).2.1]
    exact h.leaving t r ht
  · rw [(hsame r).2.1] at hr
    exact h.sent r hr
  · rw [(hsame r).1] at hr
    exact h.completed r hr
  · rw [(hsame r).1, (hsame r).2.1]
    exact h.left r hr hne
  · rw [(hsame r).1] at hr
    exact h.doomed r hr hlisted

/-- A call that sends a request or decides about it changes it, and goes on to take it off the
table or to no task. -/
lemma change {k : Task} (htask : taskOf (pcs t) = some (r, k)) (hk : k ≠ .leaving)
    (hpc : ∀ r' k', taskOf pc = some (r', k') → r' = r ∧ k' = .leaving)
    (hplaced : placed (status r) = true) {state : RequestState ρ}
    (hsent : k = .sending ∨ state.sent = (request r).sent)
    (houtcome : taskOf pc = some (r, .leaving) ∨ state.outcome = (request r).outcome)
    (hmore : (request r).outcome ≠ none ∨ (request r).sent = some false ∨
      taskOf pc = some (r, .leaving) → state.outcome ≠ none ∨ state.sent = some false)
    (hcallback : state.callback = true → state.sent = some true) :
    Settled (update request r state) status (update pcs t pc) := by
  have hkeep : ∀ t' r' k', taskOf (update pcs t pc t') = some (r', k') →
      (r' = r ∧ k' = .leaving ∧ taskOf pc = some (r, .leaving)) ∨
        t' ≠ t ∧ taskOf (pcs t') = some (r', k') := by
    intro t' r' k' ht'
    rw [taskOf_update] at ht'
    split_ifs at ht' with ht
    · obtain ⟨rfl, rfl⟩ := hpc r' k' ht'
      exact .inl ⟨rfl, rfl, ht'⟩
    · exact .inr ⟨ht, ht'⟩
  have hout : ∀ r', (request r').outcome ≠ none ∨ (request r').sent = some false →
      (update request r state r').outcome ≠ none ∨
        (update request r state r').sent = some false :=
    (forall_update_iff request fun r' st => _ → st.outcome ≠ none ∨ st.sent = some false).mpr
      ⟨fun hr => hmore (hr.imp_right .inl), fun _ _ => id⟩
  refine ⟨fun t' r' ht' => ?_, fun t₁ t₂ r' h₁ h₂ => ?_, fun t' r' ht' => ?_, fun t' r' ht' => ?_,
    fun r' hr' => ?_, fun r' hr' => ?_, fun r' hr' hne => hout r' (h.left r' hr' hne),
    fun r' hr' hlisted => ?_, fun r' => ?_⟩
  · rcases hkeep t' r' _ ht' with ⟨-, ⟨⟩, -⟩ | ⟨hne, hold⟩
    by_cases hr : r' = r
    · subst hr
      rw [update_self, hsent.resolve_left]
      · exact h.sending t' r' hold
      · rintro rfl
        exact hne (h.sender t' t r' hold htask)
    · rw [update_of_ne hr]
      exact h.sending t' r' hold
  · rcases hkeep t₁ r' _ h₁ with ⟨-, ⟨⟩, -⟩ | ⟨-, hold₁⟩
    rcases hkeep t₂ r' _ h₂ with ⟨-, ⟨⟩, -⟩ | ⟨-, hold₂⟩
    exact h.sender t₁ t₂ r' hold₁ hold₂
  · rcases hkeep t' r' _ ht' with ⟨-, ⟨⟩, -⟩ | ⟨-, hold⟩
    exact h.deciding t' r' hold
  · rcases hkeep t' r' _ ht' with ⟨rfl, -, hleaves⟩ | ⟨-, hold⟩
    · rw [update_self]
      exact hmore (.inr (.inr hleaves))
    · exact hout r' (h.leaving t' r' hold)
  · by_cases hr : r' = r
    · exact hr ▸ hplaced
    · rw [update_of_ne hr] at hr'
      exact h.sent r' hr'
  · by_cases hr : r' = r
    · exact hr ▸ hplaced
    · rw [update_of_ne hr] at hr'
      exact h.completed r' hr'
  · by_cases hleaves : r' = r ∧ taskOf pc = some (r, .leaving)
    · exact ⟨t, by rw [update_self, hleaves.1, hleaves.2]⟩
    have hsame : (update request r state r').outcome = (request r').outcome := by
      by_cases hr : r' = r
      · rw [hr, update_self]
        exact houtcome.resolve_left fun hpc => hleaves ⟨hr, hpc⟩
      · rw [update_of_ne hr]
    obtain ⟨t', ht'⟩ := h.doomed r' (hsame ▸ hr') hlisted
    refine ⟨t', ?_⟩
    rw [taskOf_update, if_neg]
    · exact ht'
    · rintro rfl
      cases htask.symm.trans ht'
      exact hk rfl
  · exact (forall_update_iff request fun _ st => st.callback = true → st.sent = some true).mpr
      ⟨hcallback, fun r' _ => h.returned r'⟩ r'

/-- The request was sent, or sending it failed and it is on its way out. -/
lemma respond (htask : taskOf (pcs t) = some (r, .sending))
    {ok : Bool} (hpc : taskOf pc = if ok then none else some (r, .leaving)) :
    Settled (update request r { request r with sent := some ok }) status (update pcs t pc) := by
  obtain ⟨hnone, hplaced⟩ := h.sending t r htask
  refine h.change htask nofun ?_ hplaced (.inl rfl) (.inr rfl) ?_ fun hyes =>
    nomatch hnone.symm.trans (h.returned r hyes)
  · intro r' k' hr'
    cases ok <;> cases hpc.symm.trans hr'
    exact ⟨rfl, rfl⟩
  · rintro (hdone | hfailed | hleaves)
    · exact .inl hdone
    · exact nomatch hnone.symm.trans hfailed
    · cases ok
      · exact .inr rfl
      · exact nomatch hpc.symm.trans hleaves

/-- The request is completed, and the call that completed it takes it off the table. -/
lemma settle (htask : taskOf (pcs t) = some (r, .deciding))
    (outcome : ρ) (hpc : taskOf pc = some (r, .leaving)) :
    Settled (update request r { request r with outcome := some outcome }) status
      (update pcs t pc) := by
  refine h.change htask nofun (fun r' k' hr' => ?_) (h.deciding t r htask) (.inr rfl) (.inl hpc)
    (fun _ => .inl nofun) (h.returned r)
  cases hpc.symm.trans hr'
  exact ⟨rfl, rfl⟩

omit [DecidableEq τ] [DecidableEq ι] in
/-- A request that was never on the table was not sent and has no outcome. -/
lemma fresh (hplaced : placed (status r) = false) :
    (request r).outcome = none ∧ (request r).sent = none := by
  constructor <;> by_contra hne
  · cases hplaced.symm.trans (h.completed r hne)
  · cases hplaced.symm.trans (h.sent r hne)

omit [DecidableEq τ] in
lemma begin (hplaced : placed (status r) = false)
    {state : RequestState ρ} (houtcome : state.outcome = none) (hsent : state.sent = none)
    (hcallback : state.callback = false) :
    Settled (update request r state) status pcs := by
  obtain ⟨hnone, hunsent⟩ := h.fresh hplaced
  exact h.setRequest (houtcome.trans hnone.symm) (hsent.trans hunsent.symm)
    fun hyes => nomatch hcallback.symm.trans hyes

end
end Settled
end Reentrancy
end GoAkt.Actor
