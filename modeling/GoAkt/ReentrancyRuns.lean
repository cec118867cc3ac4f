import GoAkt.ReentrancyPromises

/-!
# Runs of asynchronous requests

Each part of the invariant is kept by every step that is no hazard, and so by every run
without one. When no call is in progress the parts say that the bookkeeping is exact.
-/
namespace GoAkt.Actor
open GoAkt.Interleavings Function Option
namespace Reentrancy
variable {τ ι ρ μ : Type*} [DecidableEq τ] [DecidableEq ι] {maxInFlight : ℕ}
  {s s' : Reentrancy τ ι ρ μ} {e : Event τ ι ρ μ} {t : τ} {r : ι} {pc : Pc ι ρ μ}

lemma Limited.step (h : Limited maxInFlight s.inFlightCount s.pc)
    (hmove : Move maxInFlight s e s') : Limited maxInFlight s'.inFlightCount s'.pc := by
  cases hmove with
  | thenAgain | thenOpen | unstash => exact h
  | @load _ r _ hpc hlimit =>
    refine h.goto fun r' current hswap => ?_
    cases hswap
    exact hlimit
  | count hpc hmax =>
    refine Limited.goto (h.change fun hpos => ?_) nofun
    exact absurd hmax hpos.ne'
  | @swap t r _ hpc =>
    have hlimit := h.seen t r _ hpc
    refine Limited.goto (h.change fun _ _ => ?_) nofun
    exact hlimit
  | uncount hpc | uncountAll hpc =>
    refine Limited.goto (h.change fun _ hbound => ?_) nofun
    exact (Int.sub_le_self _ one_pos.le).trans hbound
  | store hpc =>
    refine Limited.goto (h.change fun _ _ => ?_) nofun
    exact Int.natCast_nonneg _
  | @unblock _ r _ _ _ hpc hmode hnext =>
    refine h.goto fun r' current hswap => ?_
    rw [hnext] at hswap
    split_ifs at hswap
  | @delete t r _ _ hpc | @remove t _ r _ _ hpc =>
    obtain ⟨hcount, -, -, -, hpcs⟩ := s.takeOff_frame t r
    unfold Reentrancy.goto
    rw [hcount, hpcs]
    exact h.goto nofun
  | _ => exact h.goto nofun

lemma Released.step (h : Released s.held s.blockingCount s.pc) (hsafe : ¬Hazard s e)
    (hmove : Move maxInFlight s e s') : Released s'.held s'.blockingCount s'.pc := by
  cases hmove with
  | thenAgain | thenOpen => exact h
  | @unstash t after _ _ held hpc hheld => exact fun _ => .inr ⟨t, after, hpc⟩
  | unstashed hpc hheld => exact fun hne => absurd hheld hne
  | @hold t _ _ hpc =>
    intro _
    by_contra hnone
    rw [not_or, not_lt] at hnone
    refine hsafe ?_
    rw [Hazard, hpc]
    refine ⟨hnone.1, fun t' after ht' => hnone.2 ⟨t', after, ?_⟩⟩
    change update s.pc t _ t' = _
    rw [update_of_ne]
    · exact ht'
    · rintro rfl
      cases hpc.symm.trans ht'
  | @block t r _ hpc hmode =>
    have hgoto : Released s.held s.blockingCount (update s.pc t (.put r)) :=
      h.goto fun _ => by rw [hpc]; simp
    exact fun hne => (hgoto hne).imp_left fun hpos => Int.lt_add_one_of_le hpos.le
  | @unblock t _ after pc _ hpc hmode hnext =>
    by_cases hzero : s.blockingCount - 1 = 0
    · rw [if_pos hzero] at hnext
      exact fun _ => .inr ⟨t, after, hnext ▸ update_self ..⟩
    · have hgoto : Released s.held s.blockingCount (update s.pc t pc) :=
        h.goto fun _ => by rw [hpc]; simp
      refine fun hne => (hgoto hne).imp_left fun hpos => ?_
      change 0 < s.blockingCount - 1
      omega
  | @unblockAll t reason _ keys _ hpc hmode =>
    have hgoto : Released s.held s.blockingCount (update s.pc t (.visit reason keys)) :=
      h.goto fun _ => by rw [hpc]; simp
    intro hne
    rcases hgoto hne with hpos | hunstash
    · by_cases hone : s.blockingCount = 1
      · rw [Hazard, hpc] at hsafe
        have hsome : ∃ t' after, s.pc t' = .unstash after := by
          by_contra hnone
          push Not at hnone
          exact hsafe ⟨hmode, hone, hne, hnone⟩
        obtain ⟨t', after, ht'⟩ := hsome
        refine .inr ⟨t', after, ?_⟩
        change update s.pc t _ t' = _
        rw [update_of_ne]
        · exact ht'
        · rintro rfl
          cases hpc.symm.trans ht'
      · refine .inl ?_
        change 0 < s.blockingCount - 1
        omega
    · exact .inr hunstash
  | @storeBlocking t _ hpc =>
    have hzero : s.blockingCount = 0 := by
      by_contra hne
      exact hsafe (by rw [Hazard, hpc]; exact hne)
    have hgoto : Released s.held s.blockingCount (update s.pc t .idle) :=
      h.goto fun _ => by rw [hpc]; simp
    rw [hzero] at hgoto
    exact hgoto
  | @delete t r _ _ hpc | @remove t _ r _ _ hpc =>
    obtain ⟨-, hcount, -, hheld, hpcs⟩ := s.takeOff_frame t r
    unfold Reentrancy.goto
    rw [hcount, hheld, hpcs]
    exact h.goto fun _ => by rw [hpc]; simp
  | _ => exact h.goto fun _ => by rw [‹s.pc _ = _›]; simp

lemma Promises.step (h : Promises s.request s.pc) (hsettled : Settled s.request s.status s.pc)
    (hsafe : ¬Hazard s e) (hmove : Move maxInFlight s e s') : Promises s'.request s'.pc := by
  cases hmove with
  | thenAgain | unstash => exact h
  | @request t r _ hpc hstatus =>
    refine Promises.goto ?_ (congrArg carry hpc :)
    refine h.reset (fun t' o ht' => ?_) (.inl rfl) rfl
    have hsent := hsettled.returned r (h.owed t' r o ht').1
    have hplaced := hsettled.sent r (by rw [hsent]; nofun)
    rw [hstatus] at hplaced
    cases hplaced
  | @thenOpen t r hpc hsent hcallback houtcome =>
    refine h.reset (fun t' o ht' => ?_) (.inr houtcome) (h.quiet r (.inl hcallback))
    exact nomatch hcallback.symm.trans (h.owed t' r o ht').1
  | thenDone hpc hsent hcallback houtcome =>
    exact h.promise (.inl hcallback) (by rw [hpc]; rfl) rfl rfl houtcome rfl
  | sent hpc | failed hpc =>
    refine Promises.goto ?_ (congrArg carry hpc :)
    exact h.setRequest rfl rfl rfl
  | notify hpc => exact h.keep (by rw [hpc]; rfl) rfl
  | @complete t r _ _ hpc houtcome =>
    cases hcallback : (s.request r).callback with
    | true => exact h.promise (.inr houtcome) (by rw [hpc]; rfl) rfl hcallback rfl rfl
    | false =>
      refine Promises.goto ?_ (congrArg carry hpc :)
      refine h.reset (fun t' o ht' => ?_) (.inl hcallback) (h.quiet r (.inr houtcome))
      exact nomatch hcallback.symm.trans (h.owed t' r o ht').1
  | @cancel t _ r _ _ hpc houtcome =>
    have hcallback : (s.request r).callback = false := by
      by_contra hyes
      exact hsafe (by rw [Hazard, hpc]; exact ⟨houtcome, Bool.not_eq_false _ |>.mp hyes⟩)
    refine Promises.goto ?_ (congrArg carry hpc :)
    refine h.reset (fun t' o ht' => ?_) (.inl hcallback) (h.quiet r (.inr houtcome))
    exact nomatch hcallback.symm.trans (h.owed t' r o ht').1
  | unblock hpc hmode hnext =>
    refine h.goto ?_
    rw [hpc, hnext]
    split_ifs <;> rfl
  | @delete t r _ _ hpc | @remove t _ r _ _ hpc =>
    obtain ⟨-, -, hrequest, -, hpcs⟩ := s.takeOff_frame t r
    unfold Reentrancy.goto
    rw [hrequest, hpcs]
    exact h.goto (by rw [hpc]; rfl)
  | _ => exact h.goto (by rw [‹s.pc _ = _›]; rfl)

section
variable (h : Settled s.request s.status s.pc)
include h

/-- The call has the request in its hands and moves it on. -/
lemma Settled.advance (hbooks : Books s) (a : Handling)
    {now : Status τ} (hstage : stageOf (s.pc t) = some (r, a)) (htask : taskOf pc = none)
    (hplaced : placed now = placed (.owned t a)) (hnow : now ≠ .listed) :
    Settled s.request (update s.status r now) (update s.pc t pc) := by
  have howned := hbooks.owned hstage
  have hold : taskOf (s.pc t) = none := by
    cases hpc : s.pc t
    all_goals first | rfl | (rw [hpc] at hstage; cases hstage)
  refine (h.setStatus (fun hr => ?_) (fun hr _ => ?_) fun hlisted => absurd hlisted hnow).goto
    hold htask
  · rw [hplaced, ← howned]
    exact hr
  · refine h.left r ?_ (by rw [howned]; nofun)
    rw [howned, ← hplaced]
    exact hr

/-- The request is taken off the table by a call that had decided to. -/
lemma Settled.takeOff (hmem : r ∈ s.requestStates)
    (htask : taskOf (s.pc t) = some (r, .leaving)) (hpc : taskOf pc = none) :
    Settled ((s.takeOff t r).goto t pc).request ((s.takeOff t r).goto t pc).status
      ((s.takeOff t r).goto t pc).pc := by
  unfold Reentrancy.takeOff
  rw [if_pos hmem]
  refine Settled.rest ?_ hpc fun r' hr' => ?_
  · exact h.setStatus (fun _ => rfl) (fun _ _ => h.leaving t r htask) nofun
  · cases htask.symm.trans hr'
    exact fun hlisted => nomatch (update_self r _ s.status).symm.trans hlisted

lemma Settled.step (hbooks : Books s) (hsafe : ¬Hazard s e) (hmove : Move maxInFlight s e s') :
    Settled s'.request s'.status s'.pc := by
  cases hmove with
  | thenAgain | unstash => exact h
  | @request _ r _ hpc hstatus =>
    have hplaced : placed (s.status r) = false := by rw [hstatus]; rfl
    refine Settled.goto ?_ (congrArg taskOf hpc :) rfl
    refine Settled.setStatus ?_ (fun hr => by cases hplaced.symm.trans hr) (fun hr => by cases hr)
      (by simp)
    exact h.begin hplaced rfl rfl rfl
  | thenOpen hpc hsent hcallback houtcome => exact h.setRequest rfl rfl fun _ => hsent
  | thenDone hpc hsent hcallback houtcome =>
    refine Settled.goto ?_ (congrArg taskOf hpc :) rfl
    exact h.setRequest rfl rfl fun _ => hsent
  | @notify _ r _ _ hpc =>
    refine Settled.goto ?_ (congrArg taskOf hpc :) rfl
    exact h.setRequest rfl rfl (h.returned r)
  | refuse hpc | count hpc hmax | swap hpc =>
    exact h.advance hbooks .pending (by rw [hpc]; rfl) rfl rfl (by simp)
  | block hpc hmode | pass hpc hmode =>
    exact h.advance hbooks .counted (by rw [hpc]; rfl) rfl rfl (by simp)
  | uncount hpc | uncountAll hpc =>
    exact h.advance hbooks .removing (by rw [hpc]; rfl) rfl rfl (by simp)
  | forget hpc hmode | unblockAll hpc hmode | forgetAll hpc hmode =>
    exact h.advance hbooks .unblocking (by rw [hpc]; rfl) rfl rfl (by simp)
  | unblock hpc hmode hnext =>
    refine h.advance hbooks .unblocking (by rw [hpc]; rfl) ?_ rfl (by simp)
    rw [hnext]
    split_ifs <;> rfl
  | @put t r _ hpc =>
    have howned := hbooks.owned (t := t) (r := r) (a := .ready) (by rw [hpc]; rfl)
    have hplaced : placed (s.status r) = false := by rw [howned]; rfl
    obtain ⟨hnone, hsent⟩ := h.fresh hplaced
    have hput : Settled s.request (update s.status r .listed) s.pc :=
      h.setStatus (fun _ => rfl) (fun _ hne => absurd rfl hne) fun _ => hnone
    refine hput.turn (fun r' hr' => ?_) (fun _ hr => by cases hr) (fun _ hr => by cases hr)
      fun r' hr' => ?_
    · cases hr'
      rw [update_self]
      exact ⟨hsent, rfl, fun t' ht' => nomatch hplaced.symm.trans (h.sending t' r ht').2⟩
    · rw [hpc] at hr'
      cases hr'
  | sent hpc | failed hpc => exact h.respond (by rw [hpc]; rfl) rfl
  | @lookup t r _ _ hpc hmem =>
    have htask : taskOf (s.pc t) = some (r, .leaving) := by rw [hpc]; rfl
    refine h.turn (fun _ hr => by cases hr) (fun _ hr => by cases hr) (fun r' hr' => ?_)
      fun r' hr' => .inl (htask.symm.trans hr')
    cases hr'
    exact h.leaving t r htask
  | @miss _ r _ _ hpc hmem =>
    refine h.rest rfl fun r' hr' hlisted => ?_
    rw [hpc] at hr'
    cases hr'
    exact hmem ((Balanced.listed hbooks r).mpr hlisted)
  | @delete _ r _ _ hpc | @remove _ _ r _ _ hpc =>
    have hmem : r ∈ s.requestStates := by
      by_contra hmem
      exact hsafe (by rw [Hazard, hpc]; exact hmem)
    exact h.takeOff hmem (by rw [hpc]; rfl) rfl
  | @find _ r _ _ hpc hmem | @visit _ _ r _ _ hpc hmem =>
    refine h.turn (fun _ hr => by cases hr) (fun r' hr' => ?_) (fun _ hr => by cases hr)
      fun r' hr' => ?_
    · cases hr'
      rw [(Balanced.listed hbooks r).mp hmem]
      rfl
    · rw [hpc] at hr'
      cases hr'
  | @completedBefore _ r _ _ hpc | @spare _ _ r _ _ hpc =>
    refine h.rest rfl fun r' hr' => ?_
    rw [hpc] at hr'
    cases hr'
  | @complete _ _ outcome _ hpc houtcome => exact h.settle (by rw [hpc]; rfl) outcome rfl
  | @cancel _ reason _ _ _ hpc houtcome => exact h.settle (by rw [hpc]; rfl) reason rfl
  | _ => exact h.goto (by rw [‹s.pc _ = _›]; rfl) rfl

end

/-! ### Runs -/

structure Sound (maxInFlight : ℕ) (s : Reentrancy τ ι ρ μ) : Prop where
  books : Books s
  limited : Limited maxInFlight s.inFlightCount s.pc
  released : Released s.held s.blockingCount s.pc
  promises : Promises s.request s.pc
  settled : Settled s.request s.status s.pc

lemma Sound.step (h : Sound maxInFlight s) (hsafe : ¬Hazard s e)
    (hmove : Move maxInFlight s e s') : Sound maxInFlight s' where
  books := h.books.step hsafe hmove
  limited := h.limited.step hmove
  released := h.released.step hsafe hmove
  promises := h.promises.step h.settled hsafe hmove
  settled := h.settled.step h.books hsafe hmove

lemma Sound.start : Sound maxInFlight (system τ ι ρ μ maxInFlight).start where
  books := by
    refine ⟨fun t r place => ?_, fun r => ?_, List.nodup_nil, ?_, ?_, ?_⟩
    · exact ⟨nofun, nofun⟩
    · exact ⟨nofun, nofun⟩
    · exact Set.finite_empty.subset fun r hr => hr rfl
    · have hempty : {r : ι | (Status.fresh : Status τ).counts = true} = ∅ :=
        Set.eq_empty_of_forall_notMem nofun
      change (0 : ℤ) = ({r : ι | (Status.fresh : Status τ).counts = true}.ncard : ℤ)
      rw [hempty, Set.ncard_empty]
      rfl
    · have hempty : {r : ι | Blocks (.allowAll, (Status.fresh : Status τ))} = ∅ :=
        Set.eq_empty_of_forall_notMem fun r hr => nomatch hr.1
      change (0 : ℤ) = ({r : ι | Blocks (.allowAll, (Status.fresh : Status τ))}.ncard : ℤ)
      rw [hempty, Set.ncard_empty]
      rfl
  limited := ⟨fun _ => Int.natCast_nonneg _, nofun⟩
  released := fun hne => absurd rfl hne
  promises := ⟨nofun, nofun, nofun, fun _ _ => rfl⟩
  settled := ⟨nofun, nofun, nofun, nofun, fun _ hne => absurd rfl hne, fun _ hne => absurd rfl hne,
    nofun, nofun, nofun⟩

lemma Sound.run {es : List (Event τ ι ρ μ)}
    (hsafe : ¬(system τ ι ρ μ maxInFlight).Took Hazard es)
    (hrun : (system τ ι ρ μ maxInFlight).run es = some s) : Sound maxInFlight s :=
  System.safe_invariant Sound.start
    (fun _ _ _ h hstep hsafe => h.step hsafe (move_of_step hstep)) hsafe hrun

/-! ### When no call is in progress -/

section
omit [DecidableEq τ] [DecidableEq ι]

/-- With every call done, a request is on the table, off it for good, or not there yet. -/
lemma Books.at_rest (h : Books s) (hidle : ∀ t, s.pc t = .idle) (r : ι) (t : τ) (a : Handling) :
    s.status r ≠ .owned t a := by
  intro howned
  have hstage := (Balanced.owned h t r a).mpr howned
  rw [hidle t] at hstage
  cases hstage

lemma Books.counts_iff (h : Books s) (hidle : ∀ t, s.pc t = .idle) (r : ι) :
    ((s.status r).counts = true ↔ r ∈ s.requestStates) ∧
      ((s.status r).blocks = true ↔ r ∈ s.requestStates) := by
  rw [Balanced.listed h]
  cases hstatus : s.status r with
  | owned t a => exact absurd hstatus (h.at_rest hidle r t a)
  | listed => exact ⟨iff_of_true rfl rfl, iff_of_true rfl rfl⟩
  | fresh | gone | refused => exact ⟨iff_of_false nofun nofun, iff_of_false nofun nofun⟩

end

/-- The registered requests in stash mode. -/
def stashing (s : Reentrancy τ ι ρ μ) : List ι :=
  s.requestStates.filter fun r => (s.request r).mode = .stashNonReentrant

section
omit [DecidableEq τ]

lemma Books.inFlightCount_eq (h : Books s) (hidle : ∀ t, s.pc t = .idle) :
    s.inFlightCount = s.requestStates.length := by
  have hset : {r | (s.status r).counts = true} = (s.requestStates.toFinset : Set ι) := by
    ext r
    rw [List.coe_toFinset]
    exact (h.counts_iff hidle r).1
  rw [Balanced.inFlight h, hset, Set.ncard_coe_finset, List.toFinset_card_of_nodup h.nodup]

lemma Books.blockingCount_eq (h : Books s) (hidle : ∀ t, s.pc t = .idle) :
    s.blockingCount = s.stashing.length := by
  have hnodup : s.stashing.Nodup := h.nodup.filter _
  have hset : {r | Blocks ((s.request r).mode, s.status r)} = (s.stashing.toFinset : Set ι) := by
    ext r
    rw [List.coe_toFinset]
    change Blocks _ ↔ r ∈ s.stashing
    rw [stashing, List.mem_filter, decide_eq_true_iff, ← (h.counts_iff hidle r).2,
      and_comm]
    rfl
  rw [Balanced.blocking h, hset, Set.ncard_coe_finset, List.toFinset_card_of_nodup hnodup]

/-- A continuation waits for its request as long as that is on the table, and was invoked
once when it is not. -/
lemma Sound.invoked_of_idle (h : Sound maxInFlight s) (hidle : ∀ t, s.pc t = .idle)
    (hcallback : (s.request r).callback = true) :
    (s.request r).invoked.length = if r ∈ s.requestStates then 0 else 1 := by
  have hsent := h.settled.returned r hcallback
  have hplaced := h.settled.sent r (by rw [hsent]; nofun)
  split_ifs with hmem
  · have hlisted := (Balanced.listed h.books r).mp hmem
    have hopen : (s.request r).outcome = none := by
      by_contra hne
      obtain ⟨t, ht⟩ := h.settled.doomed r hne hlisted
      rw [hidle t] at ht
      cases ht
    rw [h.promises.quiet r (.inr hopen)]
    rfl
  · have hleft : s.status r ≠ .listed := fun hlisted =>
      hmem ((Balanced.listed h.books r).mpr hlisted)
    rcases h.settled.left r hplaced hleft with houtcome | hfailed
    · obtain ⟨o, ho⟩ := ne_none_iff_exists'.mp houtcome
      rcases h.promises.kept r o hcallback ho with hinvoked | ⟨-, t, ht⟩
      · rw [hinvoked]
        rfl
      · rw [hidle t] at ht
        cases ht
    · rw [hsent] at hfailed
      cases hfailed

end

omit [DecidableEq τ] [DecidableEq ι] in
lemma Promises.invoked_length (h : Promises s.request s.pc) (r : ι) :
    (s.request r).invoked.length ≤ 1 := by
  by_cases hquiet : (s.request r).callback = false ∨ (s.request r).outcome = none
  · rw [h.quiet r hquiet]
    exact Nat.zero_le 1
  · rw [not_or, Bool.not_eq_false] at hquiet
    obtain ⟨o, ho⟩ := ne_none_iff_exists'.mp hquiet.2
    rcases h.kept r o hquiet.1 ho with hinvoked | ⟨hinvoked, -⟩
    · rw [hinvoked]
      rfl
    · rw [hinvoked]
      exact Nat.zero_le 1

/-- In every run without a hazard the counters are never negative and the number of
requests in flight stays within the maximum. Whenever no call is in progress the counters
are exact, every continuation was invoked exactly once unless its request is still
registered, and nothing is stashed unless a request in stash mode is registered. -/
theorem reentrancy_bookkeeping_exact {es : List (Event τ ι ρ μ)}
    (hsafe : ¬(system τ ι ρ μ maxInFlight).Took Hazard es)
    (hrun : (system τ ι ρ μ maxInFlight).run es = some s) :
    0 ≤ s.inFlightCount ∧ 0 ≤ s.blockingCount ∧
      (0 < maxInFlight → s.inFlightCount ≤ maxInFlight) ∧
      (∀ r, (s.request r).invoked.length ≤ 1) ∧
      ((∀ t, s.pc t = .idle) →
        s.requestStates.Nodup ∧ s.inFlightCount = s.requestStates.length ∧
          s.blockingCount = s.stashing.length ∧
          (∀ r, (s.request r).callback = true →
            (s.request r).invoked.length = if r ∈ s.requestStates then 0 else 1) ∧
          (s.blockingCount = 0 → s.held = [])) := by
  have hsound := Sound.run hsafe hrun
  refine ⟨?_, ?_, hsound.limited.bound, hsound.promises.invoked_length, fun hidle => ⟨?_, ?_, ?_,
    fun r hcallback => ?_, fun hzero => ?_⟩⟩
  · rw [Balanced.inFlight hsound.books]
    exact Int.natCast_nonneg _
  · rw [Balanced.blocking hsound.books]
    exact Int.natCast_nonneg _
  · exact hsound.books.nodup
  · exact hsound.books.inFlightCount_eq hidle
  · exact hsound.books.blockingCount_eq hidle
  · exact hsound.invoked_of_idle hidle hcallback
  · by_contra hheld
    rcases hsound.released hheld with hpos | ⟨t, after, hunstash⟩
    · exact hpos.ne' hzero
    · exact nomatch (hidle t).symm.trans hunstash

/-- The next steps of one call. -/
def steps (t : τ) (n : ℕ) : List (Event τ ι ρ μ) := List.replicate n (.step t true)

/-- A test that no hazard passes. -/
def harmless (s : Reentrancy τ ι ρ μ) : Event τ ι ρ μ → Bool
  | .step t _ =>
    match s.pc t with
    | .cancel .. | .unblockAll .. => false
    | .store => s.inFlightCount == 0
    | .storeBlocking => s.blockingCount == 0
    | .hold _ => decide (0 < s.blockingCount)
    | .delete r _ | .remove _ r _ => decide (r ∈ s.requestStates)
    | _ => true
  | _ => true

omit [DecidableEq τ] in
lemma not_hazard_of_harmless (s : Reentrancy τ ι ρ μ) (e : Event τ ι ρ μ)
    (htest : s.harmless e = true) : ¬Hazard s e := by
  cases e with
  | step t ok =>
    rw [Hazard]
    rw [harmless] at htest
    cases hpc : s.pc t with rw [hpc] at htest
    | cancel | unblockAll =>
      cases htest
    | store | storeBlocking => exact not_not.mpr (eq_of_beq htest)
    | hold message => exact fun hhazard => absurd (of_decide_eq_true htest) (not_lt.mpr hhazard.1)
    | delete | remove => exact not_not.mpr (of_decide_eq_true htest)
    | _ => exact not_false
  | _ => exact not_false

/-- A request in stash mode with a continuation, a message that comes while it is out, its
response, and a cancellation after that. -/
def respondOne : List (Event Unit ℕ Bool ℕ) :=
  .request () 0 .stashNonReentrant :: steps () 5 ++ [.onDone () 0, .dispatchOne () 7] ++
    steps () 2 ++ .completeRequest () 0 true :: steps () 9 ++
    .cancelInFlightRequests () false [] :: steps () 3

theorem reentrancy_bookkeeping_exact_respondOne :
    ∃ s, (system Unit ℕ Bool ℕ 2).run respondOne = some s ∧ (∀ t, s.pc t = .idle) ∧
      (s.request 0).callback = true ∧ s.requestStates = [] ∧ s.inFlightCount = 0 ∧
      (s.request 0).invoked.length = 1 ∧ (s.blockingCount = 0 → s.held = []) := by
  obtain ⟨s, hrun, hsafe, hidle, hcallback, htable⟩ := System.exists_safe_run
    (system Unit ℕ Bool ℕ 2) respondOne (fun s => s.pc () = .idle ∧ (s.request 0).callback = true ∧
      s.requestStates = []) not_hazard_of_harmless (by decide +kernel)
  obtain ⟨-, -, -, -, hrest⟩ := reentrancy_bookkeeping_exact hsafe hrun
  obtain ⟨-, hcount, -, hinvoked, hheld⟩ := hrest fun _ => hidle
  have hcount : s.inFlightCount = 0 := by rw [hcount, htable]; rfl
  have hinvoked : (s.request 0).invoked.length = 1 := by
    rw [hinvoked 0 hcallback, htable]
    rfl
  exact ⟨s, hrun, fun _ => hidle, hcallback, htable, hcount, hinvoked, hheld⟩

/-- A cancellation of all requests completes one and never invokes its continuation. -/
def cancelWaiting : List (Event Unit ℕ Bool ℕ) :=
  .request () 0 .allowAll :: steps () 4 ++ .onDone () 0 ::
    .cancelInFlightRequests () false [0] :: steps () 8

/-- It releases the actor and leaves a stashed message behind. -/
def cancelStashing : List (Event Unit ℕ Bool ℕ) :=
  .request () 0 .stashNonReentrant :: steps () 4 ++ .dispatchOne () 7 :: steps () 2 ++
    .cancelInFlightRequests () false [0] :: steps () 8

/-- A request that registers while it runs is not counted. -/
def registerWhileCancelling : List (Event Bool ℕ Bool ℕ) :=
  .cancelInFlightRequests false false [] :: steps false 1 ++
    .request true 0 .allowAll :: steps true 4 ++ steps false 2

theorem cancelled_requests_miscounted :
    (∃ s, (system Unit ℕ Bool ℕ 0).run cancelWaiting = some s ∧ (∀ t, s.pc t = .idle) ∧
      (s.request 0).callback = true ∧ s.requestStates = [] ∧ (s.request 0).invoked = []) ∧
    (∃ s, (system Unit ℕ Bool ℕ 0).run cancelStashing = some s ∧ (∀ t, s.pc t = .idle) ∧
      s.blockingCount = 0 ∧ s.held = [7]) ∧
    (∃ s, (system Bool ℕ Bool ℕ 0).run registerWhileCancelling = some s ∧ (∀ t, s.pc t = .idle) ∧
      s.requestStates = [0] ∧ s.inFlightCount = 0) ∧
    ∃ s, (system Bool ℕ Bool ℕ 0).run
        (registerWhileCancelling ++ .completeRequest true 0 true :: steps true 7) = some s ∧
      (∀ t, s.pc t = .idle) ∧ s.requestStates = [] ∧ s.inFlightCount = -1 := by
  refine ⟨?_, ?_, ?_, ?_⟩
  · exact System.exists_run (by decide +kernel)
  · exact System.exists_run (by decide +kernel)
  · exact System.exists_run (by decide +kernel)
  · exact System.exists_run (by decide +kernel)

end Reentrancy
end GoAkt.Actor
