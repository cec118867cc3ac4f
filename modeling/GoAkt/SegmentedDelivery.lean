import GoAkt.SegmentedDequeueSteps

/-!
# What the segmented mailbox delivers

As long as no segment is used after its life, `Dequeue` returns the messages of a mailbox in the
order of their slots. From a state without a call in progress `Dequeue` alone returns all of
them, and it returns nothing only when there is nothing left.
-/
namespace GoAkt.Actor
open List Segment GoAkt.Interleavings GoAkt.Neighbours Function
variable {κ μ : Type} [DecidableEq κ]

/-- The message of a call on the mailbox `m` that has no slot yet. -/
def SegmentedEnqueue.pending (m : κ) : SegmentedEnqueue κ μ → List μ
  | .idle => []
  | .starting m' msg => if m' = m then [msg] else []
  | .loaded m' msg _ => if m' = m then [msg] else []
  | .reserved _ _ _ _ => []
  | .stored _ => []
  | .full m' msg _ => if m' = m then [msg] else []
  | .getting m' msg _ => if m' = m then [msg] else []
  | .resetting m' msg _ _ _ => if m' = m then [msg] else []
  | .linking m' msg _ _ => if m' = m then [msg] else []
  | .moving m' msg _ _ => if m' = m then [msg] else []

namespace SegmentedMailboxes
variable {n : ℕ} {chain : κ → List ℕ} {base : ℕ → ℕ} {s s' : SegmentedMailboxes κ μ} {m : κ}

/-! ## Every call gets one slot -/

/-- The messages of a producer in the slots of a mailbox. -/
def sentBy (s : SegmentedMailboxes κ μ) (p : ℕ) (m : κ) : List μ :=
  ((s.sent m).filter fun entry => entry.1 = p).map Prod.snd

/-- The messages of the calls of a producer on a mailbox. -/
def calledOn (s : SegmentedMailboxes κ μ) (p : ℕ) (m : κ) : List μ :=
  ((s.called p).filter fun entry => entry.1 = m).map Prod.snd

/-- The slots hold the messages of the calls in their order, except for a call that has no slot
yet. -/
def Accounted (s : SegmentedMailboxes κ μ) : Prop :=
  ∀ p m, s.sentBy p m ++ (s.producers p).pending m = s.calledOn p m

/-- An access that gives no slot. -/
lemma Accounted.move (h : s.Accounted) {p : ℕ} {old phase : SegmentedEnqueue κ μ}
    (hp : s.producers p = old)
    (hsame : (s'.producers, s'.sent, s'.called) = (update s.producers p phase, s.sent, s.called))
    (hphase : ∀ m, phase.pending m = old.pending m) : s'.Accounted := by
  simp only [Prod.mk.injEq] at hsame
  obtain ⟨hproducers, hsent, hcalled⟩ := hsame
  intro p' m
  rw [sentBy, calledOn, hproducers, hsent, hcalled]
  by_cases hpp : p' = p
  · rw [hpp, update_self, hphase, ← hp]
    exact h p m
  · rw [update_of_ne hpp]
    exact h p' m

lemma Accounted.call (h : s.Accounted) {p : ℕ} {msg : μ} (hstep : s.call p m msg = some s') :
    s'.Accounted := by
  unfold SegmentedMailboxes.call at hstep
  split at hstep <;> cases hstep
  next hp _ _ =>
    intro p' m'
    change s.sentBy p' m' ++ (update s.producers p (.starting m msg) p').pending m' =
      ((update s.called p (s.called p ++ [(m, msg)]) p').filter
        fun entry => entry.1 = m').map Prod.snd
    have hold := h p' m'
    by_cases hpp : p' = p
    · subst hpp
      rw [hp] at hold
      change s.sentBy p' m' ++ [] = s.calledOn p' m' at hold
      rw [update_self, update_self, filter_append, map_append]
      change _ = s.calledOn p' m' ++ _
      rw [← hold, append_nil, SegmentedEnqueue.pending]
      by_cases hm : m = m' <;> simp [hm]
    · rw [update_of_ne hpp, update_of_ne hpp]
      exact hold

omit [DecidableEq κ] in
lemma get_inv {place : Option ℕ} {seg : ℕ} (hget : s.get place = some (seg, s')) :
    s'.producers = s.producers ∧ s'.sent = s.sent ∧ s'.called = s.called ∧
      s'.answers = s.answers := by
  cases place with
  | none =>
    cases hget
    exact ⟨rfl, rfl, rfl, rfl⟩
  | some i =>
    obtain ⟨v, -, heq⟩ := Option.map_eq_some_iff.mp hget
    cases heq
    exact ⟨rfl, rfl, rfl, rfl⟩

lemma Accounted.of_eq (h : s.Accounted) (hproducers : s'.producers = s.producers)
    (hsent : s'.sent = s.sent) (hcalled : s'.called = s.called) : s'.Accounted := by
  intro p m
  rw [sentBy, calledOn, hproducers, hsent, hcalled]
  exact h p m

lemma Accounted.enqueue (h : s.Accounted) {p : ℕ} {place : Option ℕ}
    (hstep : s.enqueue n p place = some s') : s'.Accounted := by
  unfold SegmentedMailboxes.enqueue at hstep
  split at hstep <;> try cases hstep
  next m msg hp => exact h.move hp rfl fun _ => rfl
  next m msg tail hp =>
    dsimp only at hstep
    split_ifs at hstep with hlt <;> cases hstep
    · intro p' m'
      change ((update s.sent m (s.sent m ++ [(p, msg)]) m').filter
        fun entry => entry.1 = p').map Prod.snd ++
          (update s.producers p _ p').pending m' = s.calledOn p' m'
      have hold := h p' m'
      by_cases hm : m' = m
      · subst hm
        rw [update_self, filter_append, map_append]
        by_cases hpp : p' = p
        · subst hpp
          rw [hp] at hold
          rw [update_self]
          simpa [SegmentedEnqueue.pending, sentBy] using hold
        · rw [update_of_ne hpp]
          simpa [Ne.symm hpp, sentBy] using hold
      · rw [update_of_ne hm]
        by_cases hpp : p' = p
        · subst hpp
          rw [hp] at hold
          rw [update_self]
          simpa [SegmentedEnqueue.pending, Ne.symm hm, sentBy] using hold
        · rw [update_of_ne hpp]
          exact hold
    · exact h.move hp rfl fun _ => rfl
  next m msg tail idx hp => exact h.move hp rfl fun _ => rfl
  next m hp => exact h.move hp rfl fun _ => rfl
  next m msg tail hp =>
    refine h.move hp rfl fun m' => ?_
    cases (s.segments tail).next <;> rfl
  next m msg tail hp =>
    obtain ⟨⟨seg, s₁⟩, hget, rfl⟩ := Option.map_eq_some_iff.mp hstep
    obtain ⟨hproducers, hsent, hcalled, -⟩ := get_inv hget
    have hp₁ := (congrFun hproducers p).trans hp
    exact (h.of_eq hproducers hsent hcalled).move hp₁ rfl fun _ => rfl
  next m msg tail seg i hp =>
    refine h.move hp rfl fun m' => ?_
    split_ifs <;> rfl
  next m msg tail seg hp =>
    split_ifs at hstep with hnext <;> cases hstep
    · exact h.move hp rfl fun _ => rfl
    · exact h.move hp rfl fun _ => rfl
  next m msg tail next hp =>
    split_ifs with htail
    · exact h.move hp rfl fun _ => rfl
    · exact h.move hp rfl fun _ => rfl

/-- What an access of `Dequeue` changes of the record. -/
lemma dequeue_inv {keep : Bool} (hstep : s.dequeue n m keep = some s') :
    s'.producers = s.producers ∧ s'.sent = s.sent ∧ s'.called = s.called ∧
      (s'.answers m = s.answers m ∨ ∃ val, s'.answers m = s.answers m ++ [val] ∧
        s'.consumers m = .idle) := by
  have hanswer : ∀ (t : SegmentedMailboxes κ μ) (val : Option μ), t.answers = s.answers →
      (t.answer m val).answers m = s.answers m ++ [val] ∧ (t.answer m val).consumers m = .idle := by
    intro t val ht
    constructor
    · change update t.answers m (t.answers m ++ [val]) m = _
      rw [update_self, ht]
    · exact update_self ..
  unfold dequeue at hstep
  split at hstep <;> try cases hstep
  · exact ⟨rfl, rfl, rfl, .inl rfl⟩
  · exact ⟨rfl, rfl, rfl, .inl rfl⟩
  · exact ⟨rfl, rfl, rfl, .inl rfl⟩
  · split at hstep <;> cases hstep
    next => exact ⟨rfl, rfl, rfl, .inr ⟨_, hanswer s none rfl⟩⟩
    next => exact ⟨rfl, rfl, rfl, .inl rfl⟩
  · exact ⟨rfl, rfl, rfl, .inl rfl⟩
  · exact ⟨rfl, rfl, rfl, .inl rfl⟩
  next val _ => exact ⟨rfl, rfl, rfl, .inr ⟨_, hanswer (s.addLength m (-1)) (some val) rfl⟩⟩
  · split at hstep <;> cases hstep
    next => exact ⟨rfl, rfl, rfl, .inr ⟨_, hanswer s none rfl⟩⟩
    next => exact ⟨rfl, rfl, rfl, .inl rfl⟩
  · exact ⟨rfl, rfl, rfl, .inl rfl⟩
  · exact ⟨rfl, rfl, rfl, .inl rfl⟩
  · exact ⟨rfl, rfl, rfl, .inl rfl⟩

lemma Accounted.step (h : s.Accounted) {e : SegmentedEvent κ μ} (hstep : s.step n e = some s') :
    s'.Accounted := by
  cases e with
  | create m place =>
    change s.create n m place = some s' at hstep
    unfold create at hstep
    split at hstep
    · obtain ⟨⟨seg, s₁⟩, hget, rfl⟩ := Option.map_eq_some_iff.mp hstep
      obtain ⟨hproducers, hsent, hcalled, -⟩ := get_inv hget
      exact h.of_eq hproducers hsent hcalled
    · split_ifs at hstep <;> cases hstep
      · exact h.of_eq rfl rfl rfl
      · exact h.of_eq rfl rfl rfl
    · cases hstep
  | call p m msg => exact h.call hstep
  | enqueue p place => exact h.enqueue hstep
  | dequeue m keep =>
    obtain ⟨hproducers, hsent, hcalled, -⟩ := dequeue_inv hstep
    exact h.of_eq hproducers hsent hcalled

/-! ## `Dequeue` alone -/

def AllReturned (s : SegmentedMailboxes κ μ) (m : κ) : Prop :=
  (s.answers m).reduceOption = (s.sent m).map Prod.snd

/-- What `Dequeue` has loaded in a call during which nobody stores. -/
def Seen (n : ℕ) (segments : ℕ → Segment μ) : SegmentedDequeue μ → Prop
  | .bounded seg enq => enq = min (segments seg).writeIdx n
  | .drained seg => min (segments seg).writeIdx n ≤ (segments seg).deqIdx
  | _ => True

/-- How far a `Dequeue` call is from its next answer. -/
def weight : SegmentedDequeue μ → ℕ
  | .unlinking _ _ => 13
  | .putting _ _ => 12
  | .idle => 11
  | .looking _ => 10
  | .bounded _ _ => 9
  | .reading _ _ => 8
  | .drained _ => 8
  | .clearing _ _ _ => 7
  | .moving _ _ => 7
  | .advancing _ _ _ => 6
  | .counting _ => 5
  | .creating _ _ => 0
  | .absent => 0

def unanswered (s : SegmentedMailboxes κ μ) (m : κ) : ℕ :=
  (s.sent m).length - (s.answers m).reduceOption.length

/-- What bounds the accesses until everything is returned. -/
def distance (s : SegmentedMailboxes κ μ) (m : κ) (l : List ℕ) : ℕ :=
  12 * s.unanswered m + 12 * l.length + weight (s.consumers m)

section
omit [DecidableEq κ]

lemma Sound.answers_prefix (h : s.Sound n chain base) (m : κ) :
    (s.answers m).reduceOption <+: (s.sent m).map Prod.snd := by
  by_cases hne : chain m = []
  · rw [((h.lane m).closed hne).2]
    exact nil_prefix
  · have hanswered := (h.lane m).answered hne
    rw [map_take] at hanswered
    exact (prefix_append _ _).trans (hanswered ▸ take_prefix _ _)

/-- Without producers every slot that is reserved holds its message. -/
lemma Sound.data_ne_none (h : s.Sound n chain base) (hidle : ∀ p, s.producers p = .idle)
    {seg deq : ℕ} (hm : s.consumers m = .reading seg deq) : (s.segments seg).data deq ≠ none := by
  obtain ⟨rfl, hdeq, hlt⟩ := h.caller_at hm
  have hne : chain m ≠ [] := (h.lane m).opened.mpr (by rw [hm]; rfl)
  have hmem := (h.lane m).head_mem hne
  have hwithin := (h.lane m).within hmem
  have hpos : base (s.head m) + deq < (s.sent m).length := by omega
  obtain ⟨⟨p, msg⟩, hget⟩ : ∃ entry, (s.sent m)[base (s.head m) + deq]? = some entry :=
    ⟨_, getElem?_eq_getElem hpos⟩
  have hfilled := (h.lane m).filled hmem (hlt.trans_le (min_le_right _ _)) hget fun _ => by
    rw [hm, hdeq]
    rfl
  rcases hfilled with hdata | ⟨-, hreserved⟩
  · rw [hdata]
    exact nofun
  · rw [hidle p] at hreserved
    cases hreserved

/-- A segment without a successor whose slots are all given up was the last one. -/
lemma Sound.allReturned (h : s.Sound n chain base) {seg : ℕ} (hm : s.consumers m = .drained seg)
    (hseen : Seen n s.segments (.drained seg)) (hnext : (s.segments seg).next = none) :
    s.AllReturned m := by
  obtain rfl : seg = s.head m := h.caller_at hm
  have hne : chain m ≠ [] := (h.lane m).opened.mpr (by rw [hm]; rfl)
  rcases last_or_neighbours ((h.lane m).head_mem hne) with hlast | ⟨b, hb⟩
  · have hlen := ((h.lane m).last hlast).2
    have hanswered := (h.lane m).answered hne
    rw [hm] at hanswered
    change min _ n ≤ _ at hseen
    rw [take_of_length_le (by omega)] at hanswered
    change (s.answers m).reduceOption ++ [] = _ at hanswered
    rw [append_nil] at hanswered
    exact hanswered
  · rw [((h.lane m).linked hb).1] at hnext
    cases hnext

end

/-- One access of `Dequeue` while no `Enqueue` call is in progress. -/
structure Serves (n : ℕ) (m : κ) (s s' : SegmentedMailboxes κ μ) (l : List ℕ) : Prop where
  seen : Seen n s'.segments (s'.consumers m)
  opened : (s'.consumers m).isOpen = true
  nil : s'.answers m = s.answers m ++ [none] → s.AllReturned m
  closer : s.AllReturned m ∨ s'.distance m (remaining (s.consumers m) l) < s.distance m l

lemma Sound.serves (h : s.Sound n chain base) (hidle : ∀ p, s.producers p = .idle)
    (hseen : Seen n s.segments (s.consumers m)) {keep : Bool}
    (hstep : s.dequeue n m keep = some s') : Serves n m s s' (chain m) := by
  have hself : ∀ (t : SegmentedMailboxes κ μ) (phase : SegmentedDequeue μ),
      (t.setConsumer m phase).consumers m = phase := fun _ _ => update_self ..
  have hkeeps : ¬s.answers m = s.answers m ++ [none] := by
    intro heq
    have hlen := congrArg List.length heq
    simp at hlen
  -- An access that does not return and leaves the list as it is.
  have hturn : ∀ {t : SegmentedMailboxes κ μ} {old phase : SegmentedDequeue μ},
      s.consumers m = old → t.answers = s.answers → t.sent = s.sent → Seen n t.segments phase →
      phase.isOpen = true → weight phase < weight old → remaining old (chain m) = chain m →
      Serves n m s (t.setConsumer m phase) (chain m) := by
    rintro t _ phase rfl hanswers hsent hseen hopen hweight hlist
    refine ⟨?_, ?_, fun hnil => ?_, .inr ?_⟩
    · rw [hself]
      exact hseen
    · rw [hself]
      exact hopen
    · change t.answers m = _ at hnil
      rw [hanswers] at hnil
      exact absurd hnil hkeeps
    · have hunanswered : (t.setConsumer m phase).unanswered m = s.unanswered m := by
        change (t.sent m).length - (t.answers m).reduceOption.length = _
        rw [hanswers, hsent]
        rfl
      rw [distance, distance, hself, hlist, hunanswered]
      omega
  have hreturn : ∀ (t : SegmentedMailboxes κ μ) (val : Option μ),
      (t.answer m val).consumers m = .idle := fun t val => update_self ..
  unfold SegmentedMailboxes.dequeue at hstep
  split at hstep <;> try cases hstep
  next hm => exact hturn hm rfl rfl trivial rfl (Nat.lt_succ_self 10) rfl
  next seg hm => exact hturn hm rfl rfl rfl rfl (Nat.lt_succ_self 9) rfl
  next seg enq hm =>
    rw [hm] at hseen
    split_ifs with hlt
    · exact hturn hm rfl rfl trivial rfl (Nat.lt_succ_self 8) rfl
    · refine hturn hm rfl rfl ?_ rfl (Nat.lt_succ_self 8) rfl
      change enq = min _ n at hseen
      change min _ n ≤ _
      rw [← hseen]
      exact not_lt.mp hlt
  next seg deq hm =>
    split at hstep
    next hdata => exact absurd hdata (h.data_ne_none hidle hm)
    next val hdata =>
      cases hstep
      exact hturn hm rfl rfl trivial rfl (Nat.lt_succ_self 7) rfl
  next seg deq val hm => exact hturn hm rfl rfl trivial rfl (Nat.lt_succ_self 6) rfl
  next seg deq val hm => exact hturn hm rfl rfl trivial rfl (Nat.lt_succ_self 5) rfl
  next val hm =>
    have hanswers : ((s.addLength m (-1)).answer m (some val)).answers m =
        s.answers m ++ [some val] := update_self ..
    refine ⟨?_, ?_, fun hnil => ?_, .inr ?_⟩
    · rw [hreturn]
      trivial
    · rw [hreturn]
      rfl
    · rw [hanswers] at hnil
      have heq := append_cancel_left hnil
      cases heq
    · have hne : chain m ≠ [] := (h.lane m).opened.mpr (by rw [hm]; rfl)
      have hanswered := congrArg List.length ((h.lane m).answered hne)
      rw [hm] at hanswered
      simp only [SegmentedDequeue.owed, length_append, length_singleton, length_map,
        length_take] at hanswered
      have hnew : ((s.addLength m (-1)).answer m (some val)).unanswered m + 1 = s.unanswered m := by
        rw [unanswered, unanswered, hanswers, reduceOption_append]
        change (s.sent m).length - _ + 1 = _
        rw [length_append, reduceOption_singleton]
        change (s.sent m).length - (_ + 1) + 1 = _
        omega
      rw [distance, distance, hreturn, hm]
      change 12 * _ + 12 * (chain m).length + 11 < _ + 5
      omega
  next seg hm =>
    split at hstep <;> cases hstep
    next hnext =>
      rw [hm] at hseen
      have hall := h.allReturned hm hseen hnext
      refine ⟨?_, ?_, fun _ => hall, .inl hall⟩
      · rw [hreturn]
        trivial
      · rw [hreturn]
        rfl
    next next hnext =>
      exact hturn hm rfl rfl trivial rfl (Nat.lt_succ_self 7) rfl
  next seg next hm =>
    obtain ⟨-, rest, hchain⟩ := h.chain_of_moving hm
    refine ⟨?_, ?_, fun hnil => absurd hnil hkeeps, .inr ?_⟩
    · rw [hself]
      trivial
    · rw [hself]
      rfl
    · rw [distance, distance, hself, hm, hchain]
      change 12 * s.unanswered m + 12 * (rest.length + 1) + 13 <
        12 * s.unanswered m + 12 * (rest.length + 1 + 1) + 7
      omega
  next seg next hm => exact hturn hm rfl rfl trivial rfl (Nat.lt_succ_self 12) rfl
  next seg next hm =>
    refine hturn hm rfl rfl trivial rfl ?_ rfl
    change 10 < 12
    omega

/-- `Dequeue` calls on one mailbox and nothing else, from a state on. -/
def serving (n : ℕ) (m : κ) (s : SegmentedMailboxes κ μ) :
    System (SegmentedMailboxes κ μ) Bool where
  start := s
  step s keep := s.dequeue n m keep

/-- No call is in progress. -/
structure Quiescent (s : SegmentedMailboxes κ μ) (m : κ) : Prop where
  enqueue : ∀ p, s.producers p = .idle
  dequeue : s.consumers m = .idle

/-- What `Dequeue` calls keep and how far they get. -/
structure Served (n : ℕ) (m : κ) (base : ℕ → ℕ) (s : SegmentedMailboxes κ μ) (bound : ℕ)
    (accesses : ℕ) (s' : SegmentedMailboxes κ μ) : Prop where
  alive : ∃ chain, s'.Sound n chain base ∧
    (s'.AllReturned m ∨ s'.distance m (chain m) + accesses ≤ bound)
  producers : ∀ p, s'.producers p = .idle
  sent : s'.sent = s.sent
  seen : Seen n s'.segments (s'.consumers m)
  opened : (s'.consumers m).isOpen = true
  nil : ∀ rest more, s'.answers m = s.answers m ++ rest ++ none :: more →
    (s.answers m ++ rest).reduceOption = (s.sent m).map Prod.snd
  grown : s.answers m <+: s'.answers m

/-- The steps of `serving` that use a segment after its life. -/
def Slips (n : ℕ) (m : κ) (s : SegmentedMailboxes κ μ) (keep : Bool) : Prop :=
  s.Hazard n (.dequeue m keep)

omit [DecidableEq κ] in
lemma AllReturned.keep (h : s.AllReturned m) (hsound : s'.Sound n chain base)
    (hsent : s'.sent m = s.sent m) (hgrown : s.answers m <+: s'.answers m) : s'.AllReturned m := by
  have hpre := hsound.answers_prefix m
  obtain ⟨more, hmore⟩ := hgrown
  rw [hsent] at hpre
  refine (hpre.eq_of_length_le ?_).trans (by rw [hsent])
  rw [← h, ← hmore, reduceOption_append, length_append]
  exact Nat.le_add_right _ _

lemma served_run (h : s.Sound n chain base) (hq : s.Quiescent m) {keeps : List Bool}
    (hrun : (serving n m s).run keeps = some s') (hok : ¬(serving n m s).Took (Slips n m) keeps) :
    Served n m base s (s.distance m (chain m)) keeps.length s' := by
  refine System.run_induction (P := fun keeps s' => ¬(serving n m s).Took (Slips n m) keeps →
    Served n m base s (s.distance m (chain m)) keeps.length s') ?_
    (fun keeps t keep t' hrun ih hstep hok => ?_) hrun hok
  · intro _
    refine ⟨⟨chain, h, .inr le_rfl⟩, hq.enqueue, rfl, ?_, ?_, fun rest more heq => ?_, prefix_rfl⟩
    · change Seen n s.segments (s.consumers m)
      rw [hq.dequeue]
      trivial
    · change (s.consumers m).isOpen = true
      rw [hq.dequeue]
      rfl
    · have hlen := congrArg List.length heq
      change (s.answers m).length = _ at hlen
      simp only [length_append, length_cons] at hlen
      omega
  · rw [System.took_concat hrun, not_or] at hok
    have hserved := ih hok.1
    obtain ⟨chain', hsound, hclose⟩ := hserved.alive
    have hserves := hsound.serves hserved.producers hserved.seen hstep
    have hsound' := hsound.dequeue hok.2 hstep
    obtain ⟨hproducers, hsent, -, hanswers⟩ := dequeue_inv hstep
    have hgrown : t.answers m <+: t'.answers m := by
      rcases hanswers with heq | ⟨val, heq, -⟩
      · rw [heq]
      · rw [heq]
        exact prefix_append _ _
    have hall : t.AllReturned m → t'.AllReturned m :=
      fun hall => hall.keep hsound' (congrFun hsent m) hgrown
    refine ⟨⟨_, hsound', ?_⟩, fun p => ?_, hsent.trans hserved.sent, hserves.seen, hserves.opened,
      fun rest more heq => ?_, hserved.grown.trans hgrown⟩
    · rcases hclose with hdone | hclose
      · exact .inl (hall hdone)
      · rcases hserves.closer with hdone | hcloser
        · exact .inl (hall hdone)
        · right
          rw [update_self, length_append, length_singleton]
          omega
    · rw [hproducers]
      exact hserved.producers p
    · rcases hanswers with hsame | ⟨val, hnew, -⟩
      · rw [hsame] at heq
        exact hserved.nil rest more heq
      · -- The answer is an earlier one, or the one that this access gives.
        rw [hnew] at heq
        rcases eq_nil_or_concat more with rfl | ⟨front, last, rfl⟩
        · obtain ⟨hfront, hlast⟩ := append_inj' heq rfl
          cases hlast
          have hdone := hserves.nil hnew
          rw [← hfront, ← hserved.sent]
          exact hdone
        · rw [concat_eq_append, ← cons_append, ← append_assoc] at heq
          exact hserved.nil rest front (append_inj' heq rfl).1

/-! ## Runs -/

/-- Every message is returned by its mailbox once and in order, and `Dequeue` finds nothing only
when everything is returned. -/
structure Delivers (n : ℕ) (s : SegmentedMailboxes κ μ) : Prop where
  accounted : s.Accounted
  in_order : ∀ m, (s.answers m).reduceOption <+: (s.sent m).map Prod.snd
  unstuck : ∀ m, s.Quiescent m → ∀ keeps s', (serving n m s).run keeps = some s' →
    ¬(serving n m s).Took (Slips n m) keeps → ∀ keep, (s'.dequeue n m keep).isSome
  returned : ∀ m, s.Quiescent m → ∃ accesses, ∀ keeps s', accesses ≤ keeps.length →
    (serving n m s).run keeps = some s' → ¬(serving n m s).Took (Slips n m) keeps →
    (s'.answers m).reduceOption = (s.sent m).map Prod.snd
  nil_only_if_empty : ∀ m, s.Quiescent m → ∀ keeps s' rest more,
    (serving n m s).run keeps = some s' → ¬(serving n m s).Took (Slips n m) keeps →
    s'.answers m = s.answers m ++ rest ++ none :: more →
    (s.answers m ++ rest).reduceOption = (s.sent m).map Prod.snd

lemma dequeue_isSome (hopen : (s.consumers m).isOpen = true) (keep : Bool) :
    (s.dequeue n m keep).isSome := by
  unfold dequeue
  split
  next hm =>
    rw [hm] at hopen
    cases hopen
  next hm =>
    rw [hm] at hopen
    cases hopen
  · rfl
  · rfl
  · rfl
  · split <;> rfl
  · rfl
  · rfl
  · rfl
  · split <;> rfl
  · rfl
  · rfl
  · rfl

lemma Sound.delivers (h : s.Sound n chain base) (haccounted : s.Accounted) : s.Delivers n where
  accounted := haccounted
  in_order := h.answers_prefix
  unstuck m hq keeps s' hrun hok keep := dequeue_isSome (served_run h hq hrun hok).opened keep
  returned m hq := by
    refine ⟨s.distance m (chain m) + 1, fun keeps s' hlen hrun hok => ?_⟩
    have hserved := served_run h hq hrun hok
    obtain ⟨chain', -, hdone | hclose⟩ := hserved.alive
    · rw [← hserved.sent]
      exact hdone
    · omega
  nil_only_if_empty m hq keeps s' rest more hrun hok heq :=
    (served_run h hq hrun hok).nil rest more heq

lemma accounted_of_run {events : List (SegmentedEvent κ μ)}
    (hrun : (segmentedSystem κ μ n).run events = some s) : s.Accounted := by
  refine System.run_invariant ?_ (fun s e s' h hstep => h.step hstep) hrun
  intro p m
  rfl

theorem segmented_mailboxes_deliver (segmentSize : ℕ) (events : List (SegmentedEvent κ μ))
    (s : SegmentedMailboxes κ μ) (hrun : (segmentedSystem κ μ segmentSize).run events = some s)
    (hok : ¬(segmentedSystem κ μ segmentSize).Took (fun s e => s.Hazard segmentSize e) events) :
    s.Delivers segmentSize := by
  obtain ⟨chain, base, hsound⟩ := sound_of_run hrun hok
  exact hsound.delivers (accounted_of_run hrun)

/-- A sufficient test for a step that uses no segment after its life. -/
def keepsSegments (segmentSize : ℕ) (s : SegmentedMailboxes κ μ) : SegmentedEvent κ μ → Bool
  | .create _ place => place = none
  | .call _ _ _ => true
  | .enqueue _ place => place = none
  | .dequeue m _ =>
    match s.consumers m with
    | .moving seg _ => segmentSize ≤ (s.segments seg).deqIdx
    | .unlinking seg _ => s.tail m ≠ seg
    | _ => true

omit [DecidableEq κ] in
lemma not_hazard_of_keepsSegments (segmentSize : ℕ) (s : SegmentedMailboxes κ μ)
    (e : SegmentedEvent κ μ) (htest : s.keepsSegments segmentSize e = true) :
    ¬s.Hazard segmentSize e := by
  intro hhazard
  cases e with
  | create m place | enqueue p place =>
    obtain ⟨-, i, seg, p, rfl, -⟩ := hhazard
    simp [keepsSegments] at htest
  | call p m msg => exact hhazard
  | dequeue m keep =>
    rcases hhazard with ⟨seg, next, hm, hlt⟩ | ⟨next, hm⟩
    · simp only [keepsSegments, hm, decide_eq_true_eq] at htest
      omega
    · simp [keepsSegments, hm] at htest

/-- Segments of one slot. The second message needs a second segment, and both are returned. -/
def twoSegments : List (SegmentedEvent Unit ℕ) :=
  [List.replicate 6 (.create () none), [.call 0 () 7], List.replicate 4 (.enqueue 0 none),
    [.call 0 () 8], List.replicate 14 (.enqueue 0 none),
    List.replicate 20 (.dequeue () true)].flatten

theorem segmented_mailboxes_deliver_twoSegments :
    ∃ s, (segmentedSystem Unit ℕ 1).run twoSegments = some s ∧
      s.answers () = [some 7, some 8] ∧ s.pool = [0] ∧ s.Delivers 1 := by
  obtain ⟨s, hrun, hok, hanswers, hpool⟩ := System.exists_safe_run (segmentedSystem Unit ℕ 1)
    twoSegments (fun s => s.answers () = [some 7, some 8] ∧ s.pool = [0])
    (not_hazard_of_keepsSegments 1) (by decide +kernel)
  exact ⟨s, hrun, hanswers, hpool, segmented_mailboxes_deliver 1 twoSegments s hrun hok⟩

/-! ## A segment that is left with its messages -/

section Loss
variable {k : ℕ} {s : SegmentedMailboxes Unit ℕ}

/-- The constructor has made `i` stores. -/
structure Constructing (n i : ℕ) (s : SegmentedMailboxes Unit ℕ) : Prop where
  producers : ∀ p, s.producers p = .idle
  consumer : s.consumers () = .creating 0 i
  reset : Reset n i (s.segments 0)
  allocated : s.allocated = 1
  called : s.called 0 = []
  sent : s.sent () = []
  answers : s.answers () = []

variable {i : ℕ}

lemma Constructing.run (h : s.Constructing n i) (j : ℕ) (hj : i + j ≤ n + 3) :
    ∃ s', (List.replicate j (.create () none)).foldlM (step n) s = some s' ∧
      s'.Constructing n (i + j) := by
  induction j generalizing i s with
  | zero => exact ⟨s, rfl, h⟩
  | succ j ih =>
    have hi : i < n + 3 := by omega
    have hnext : ((s.modify 0 (Segment.reset i)).setConsumer () (.creating 0 (i + 1))).Constructing
        n (i + 1) := by
      refine ⟨h.producers, rfl, ?_, h.allocated, h.called, h.sent, h.answers⟩
      change Reset n (i + 1) ((s.modify 0 (Segment.reset i)).segments 0)
      rw [modify_self]
      exact h.reset.succ
    obtain ⟨s', hrun, hs'⟩ := ih hnext (by omega)
    refine ⟨s', ?_, by rwa [← Nat.add_assoc, Nat.add_right_comm]⟩
    have hstep : s.step n (.create () none) =
        some ((s.modify 0 (Segment.reset i)).setConsumer () (.creating 0 (i + 1))) := by
      simp [step, create, h.consumer, hi]
    rw [replicate_succ, foldlM_cons, hstep]
    exact hrun

/-- One producer has filled `k` slots of the first segment since the consumer saw it empty. -/
structure Filling (k : ℕ) (s : SegmentedMailboxes Unit ℕ) : Prop where
  producers : ∀ p, s.producers p = .idle
  consumer : s.consumers () = .drained 0
  tail : s.tail () = 0
  writeIdx : (s.segments 0).writeIdx = k
  next : (s.segments 0).next = none
  allocated : s.allocated = 1
  called : s.called 0 = (List.range k).map ((), ·)
  sent : s.sent () = (List.range k).map (0, ·)
  answers : s.answers () = []

/-- The constructor returns and the consumer sees the empty segment. -/
def look : List (SegmentedEvent Unit ℕ) := .create () none :: List.replicate 3 (.dequeue () true)

lemma Constructing.look (h : s.Constructing n (n + 3)) :
    ∃ s', SegmentedMailboxes.look.foldlM (step n) s = some s' ∧ s'.Filling 0 := by
  have hwrite := h.reset.writeIdx (by omega)
  have hdeq := h.reset.deqIdx (by omega)
  refine ⟨_, by
    simp [SegmentedMailboxes.look, step, create, dequeue, setConsumer, setHead, setTail,
      h.consumer, hwrite, hdeq, replicate]
    rfl, ?_⟩
  exact ⟨h.producers, rfl, rfl, hwrite, h.reset.next (by omega), h.allocated, h.called, h.sent,
    h.answers⟩

def send (msg : ℕ) : List (SegmentedEvent Unit ℕ) :=
  .call 0 () msg :: List.replicate 4 (.enqueue 0 none)

lemma Filling.send (h : s.Filling k) (hk : k < n) :
    ∃ s', (send k).foldlM (step n) s = some s' ∧ s'.Filling (k + 1) := by
  refine ⟨_, by
    simp [SegmentedMailboxes.send, step, SegmentedMailboxes.call, SegmentedMailboxes.enqueue,
      setProducer, recordCall, recordSlot, modify, addLength, h.producers, h.consumer, h.tail,
      h.writeIdx, hk, replicate]
    rfl, ?_⟩
  refine ⟨fun p => ?_, h.consumer, h.tail, ?_, ?_, h.allocated, ?_, ?_, h.answers⟩
  · by_cases hp : p = 0 <;> simp [hp, h.producers]
  · simp [storeData, addWriteIdx, h.writeIdx]
  · simp [storeData, addWriteIdx, h.next]
  · simp [h.called, range_succ]
  · simp [h.sent, range_succ]

lemma Filling.run (h : s.Filling 0) (hk : k ≤ n) :
    ∃ s', ((List.range k).flatMap SegmentedMailboxes.send).foldlM (step n) s = some s' ∧
      s'.Filling k := by
  induction k with
  | zero => exact ⟨s, rfl, h⟩
  | succ k ih =>
    obtain ⟨s₁, hrun₁, hs₁⟩ := ih (by omega)
    obtain ⟨s₂, hrun₂, hs₂⟩ := hs₁.send (n := n) (by omega)
    refine ⟨s₂, ?_, hs₂⟩
    rw [range_succ, flatMap_append, flatMap_singleton, foldlM_append, hrun₁]
    exact hrun₂

/-- The call that finds the first segment full has come to `phase`. -/
structure Overflowing (n : ℕ) (phase : SegmentedEnqueue Unit ℕ) (s : SegmentedMailboxes Unit ℕ) :
    Prop where
  producer : s.producers 0 = phase
  others : ∀ p, p ≠ 0 → s.producers p = .idle
  consumer : s.consumers () = .drained 0
  tail : s.tail () = 0
  next : (s.segments 0).next = none
  called : s.called 0 = (List.range (n + 1)).map ((), ·)
  sent : s.sent () = (List.range n).map (0, ·)
  answers : s.answers () = []

/-- The producer calls `Enqueue` again and gets a new segment. -/
lemma Filling.overflow (h : s.Filling n) :
    ∃ s', (SegmentedMailboxes.send n).foldlM (step n) s = some s' ∧
      s'.Overflowing n (.resetting () n 0 1 0) := by
  refine ⟨_, by
    simp [SegmentedMailboxes.send, step, SegmentedMailboxes.call,
      SegmentedMailboxes.enqueue, SegmentedMailboxes.get,
      setPool, setProducer, recordCall, modify, h.producers, h.consumer, h.tail, h.writeIdx,
      h.next, addWriteIdx, replicate]
    rfl, ?_⟩
  refine ⟨?_, fun p hp => ?_, h.consumer, h.tail, ?_, ?_, h.sent, h.answers⟩
  · simp [h.allocated]
  · simp [hp, h.producers]
  · simp
  · simp [h.called, range_succ]

lemma Overflowing.reset {phase : SegmentedEnqueue Unit ℕ} (h : s.Overflowing n phase)
    (phase' : SegmentedEnqueue Unit ℕ) :
    ((s.modify 1 (Segment.reset i)).setProducer 0 phase').Overflowing n phase' := by
  refine ⟨rfl, fun p hp => ?_, h.consumer, h.tail, h.next, h.called, h.sent, h.answers⟩
  exact (update_of_ne hp ..).trans (h.others p hp)

lemma Overflowing.run (h : s.Overflowing n (.resetting () n 0 1 i))
    (hreset : Reset n i (s.segments 1)) (j : ℕ) (hj : i + j = n + 2) :
    ∃ s', (List.replicate (j + 1) (.enqueue 0 none)).foldlM (step n) s = some s' ∧
      s'.Overflowing n (.linking () n 0 1) ∧ Reset n (n + 3) (s'.segments 1) := by
  have hreset' : Reset n (i + 1) ((s.modify 1 (Segment.reset i)).segments 1) := by
    rw [modify_self]
    exact hreset.succ
  have hstep : s.step n (.enqueue 0 none) = some ((s.modify 1 (Segment.reset i)).setProducer 0
      (if i + 1 < n + 3 then .resetting () n 0 1 (i + 1) else .linking () n 0 1)) := by
    simp [step, enqueue, h.producer]
  induction j generalizing i s with
  | zero =>
    obtain rfl : i = n + 2 := by omega
    rw [if_neg (by omega)] at hstep
    exact ⟨_, by rw [replicate_succ, foldlM_cons, hstep]; rfl, h.reset _, hreset'⟩
  | succ j ih =>
    rw [if_pos (by omega)] at hstep
    have hnext := h.reset (i := i) (.resetting () n 0 1 (i + 1))
    have hsucc : Reset n (i + 2) ((((s.modify 1 (Segment.reset i)).setProducer 0
        (.resetting () n 0 1 (i + 1))).modify 1 (Segment.reset (i + 1))).segments 1) := by
      rw [modify_self]
      exact hreset'.succ
    obtain ⟨s', hrun, hs', hdone⟩ := ih hnext hreset' (by omega) hsucc
      (by simp [step, enqueue, hnext.producer])
    refine ⟨s', ?_, hs', hdone⟩
    rw [replicate_succ, foldlM_cons, hstep]
    exact hrun

/-- The last message is in the second segment. -/
structure Passing (n : ℕ) (phase : SegmentedDequeue ℕ) (deq : ℕ) (s : SegmentedMailboxes Unit ℕ) :
    Prop where
  producers : ∀ p, s.producers p = .idle
  consumer : s.consumers () = phase
  writeIdx : (s.segments 1).writeIdx = 1
  deqIdx : (s.segments 1).deqIdx = deq
  next : (s.segments 1).next = none
  called : s.called 0 = (List.range (n + 1)).map ((), ·)
  sent : s.sent () = (List.range (n + 1)).map (0, ·)

/-- The producer links the segment and sends its message. -/
lemma Overflowing.link (h : s.Overflowing n (.linking () n 0 1)) (hn : 0 < n)
    (hreset : Reset n (n + 3) (s.segments 1)) :
    ∃ s', (List.replicate 6 (.enqueue 0 none)).foldlM (step n) s = some s' ∧
      s'.Passing n (.drained 0) 0 ∧ (s'.segments 0).next = some 1 ∧
      (s'.segments 1).data 0 = some n ∧ s'.answers () = [] := by
  have hwrite := hreset.writeIdx (by omega)
  have hdeq := hreset.deqIdx (by omega)
  have hnext := hreset.next (by omega)
  refine ⟨_, by
    simp [step, enqueue, setProducer, setTail, addLength, recordSlot, modify,
      h.producer, h.tail, h.next, hwrite, hn, storeNext, replicate]
    rfl, ?_⟩
  refine ⟨⟨fun p => ?_, h.consumer, ?_, ?_, ?_, h.called, ?_⟩, ?_, ?_, h.answers⟩
  · by_cases hp : p = 0 <;> simp [hp, h.others]
  · simp [hwrite, addWriteIdx, storeData]
  · simp [hdeq, addWriteIdx, storeData]
  · simp [hnext, addWriteIdx, storeData]
  · simp [h.sent, range_succ]
  · simp
  · simp [storeData]

/-- The consumer goes on to the second segment. -/
lemma Passing.leave (h : s.Passing n (.drained 0) 0) (hlink : (s.segments 0).next = some 1)
    (hdata : (s.segments 1).data 0 = some n) (hanswers : s.answers () = []) :
    ∃ s', (List.replicate 4 (.dequeue () true)).foldlM (step n) s = some s' ∧
      s'.Passing n (.looking 1) 0 ∧ s'.head () = 1 ∧
      (s'.segments 1).data 0 = some n ∧ s'.answers () = [] := by
  refine ⟨_, by
    simp [step, dequeue, setConsumer, setHead, modify, put,
      setPool, h.consumer, hlink, replicate]
    rfl, ?_⟩
  refine ⟨⟨h.producers, rfl, ?_, ?_, ?_, h.called, h.sent⟩, rfl, ?_, hanswers⟩
  · simp [h.writeIdx]
  · simp [h.deqIdx]
  · simp [h.next]
  · simp [hdata]

/-- The call returns the last message. -/
lemma Passing.take (h : s.Passing n (.looking 1) 0) (hn : 0 < n) (hhead : s.head () = 1)
    (hdata : (s.segments 1).data 0 = some n) (hanswers : s.answers () = []) :
    ∃ s', (List.replicate 6 (.dequeue () true)).foldlM (step n) s = some s' ∧
      s'.Passing n .idle 1 ∧ s'.head () = 1 ∧ s'.answers () = [some n] := by
  have hmin : min 1 n = 1 := min_eq_left hn
  refine ⟨_, by
    simp [step, dequeue, setConsumer, modify, answer,
      addLength, h.consumer, h.writeIdx, h.deqIdx, hdata, hmin, replicate]
    rfl, ?_⟩
  refine ⟨⟨h.producers, rfl, ?_, ?_, ?_, h.called, h.sent⟩, hhead, ?_⟩
  · simp [h.writeIdx, storeDeqIdx, storeData]
  · simp [storeDeqIdx]
  · simp [h.next, storeDeqIdx, storeData]
  · simp [hanswers]

/-- The next call returns nothing. -/
lemma Passing.finish (h : s.Passing n .idle 1) (hhead : s.head () = 1)
    (hanswers : s.answers () = [some n]) :
    ∃ s', (List.replicate 4 (.dequeue () true)).foldlM (step n) s = some s' ∧
      s'.Passing n .idle 1 ∧ s'.answers () = [some n, none] := by
  refine ⟨_, by
    simp [step, dequeue, setConsumer, answer, h.consumer,
      h.writeIdx, h.deqIdx, h.next, hhead, replicate]
    rfl, ?_⟩
  refine ⟨⟨h.producers, rfl, h.writeIdx, h.deqIdx, h.next, h.called, h.sent⟩, ?_⟩
  simp [hanswers]

/-- The consumer sees the first segment empty. A producer then fills it and links a second one,
and the consumer goes on to the second. -/
def leftBehind (n : ℕ) : List (SegmentedEvent Unit ℕ) :=
  let creates k : List (SegmentedEvent Unit ℕ) := List.replicate k (.create () none)
  let enqueues k : List (SegmentedEvent Unit ℕ) := List.replicate k (.enqueue 0 none)
  let dequeues k : List (SegmentedEvent Unit ℕ) := List.replicate k (.dequeue () true)
  creates (n + 4) ++ look ++ (List.range n).flatMap send ++ send n ++ enqueues (n + 3) ++
    enqueues 6 ++ dequeues 4 ++ dequeues 6 ++ dequeues 4

lemma leftBehind_run (hn : 0 < n) :
    ∃ s, (segmentedSystem Unit ℕ n).run (leftBehind n) = some s ∧ s.Passing n .idle 1 ∧
      s.answers () = [some n, none] := by
  have hnew : ∃ s, (segmentedSystem Unit ℕ n).step (segmentedSystem Unit ℕ n).start
      (.create () none) = some s ∧ s.Constructing n 0 :=
    ⟨_, rfl, fun _ => rfl, rfl, ⟨nofun, nofun, nofun, nofun⟩, rfl, rfl, rfl, rfl⟩
  obtain ⟨s₀, hstep, h₀⟩ := hnew
  obtain ⟨s₁, hrun₁, h₁⟩ := h₀.run (n + 3) (Nat.zero_add _).le
  rw [Nat.zero_add] at h₁
  obtain ⟨s₂, hrun₂, h₂⟩ := h₁.look
  obtain ⟨s₃, hrun₃, h₃⟩ := h₂.run (n := n) le_rfl
  obtain ⟨s₄, hrun₄, h₄⟩ := h₃.overflow
  obtain ⟨s₅, hrun₅, h₅, hreset⟩ := h₄.run ⟨nofun, nofun, nofun, nofun⟩ (n + 2) (Nat.zero_add _)
  obtain ⟨s₆, hrun₆, h₆, hlink, hdata, hanswers₆⟩ := h₅.link hn hreset
  obtain ⟨s₇, hrun₇, h₇, hhead₇, hdata₇, hanswers₇⟩ := h₆.leave hlink hdata hanswers₆
  obtain ⟨s₈, hrun₈, h₈, hhead₈, hanswers₈⟩ := h₇.take hn hhead₇ hdata₇ hanswers₇
  obtain ⟨s₉, hrun₉, h₉, hanswers₉⟩ := h₈.finish hhead₈ hanswers₈
  refine ⟨s₉, ?_, h₉, hanswers₉⟩
  have hrun₀ : (segmentedSystem Unit ℕ n).run [.create () none] = some s₀ := by
    rw [System.run, foldlM_cons, hstep]
    rfl
  have hfilled := System.run_append (System.run_append (System.run_append hrun₀ hrun₁) hrun₂) hrun₃
  have hlinked :=
    System.run_append (System.run_append (System.run_append hfilled hrun₄) hrun₅) hrun₆
  exact System.run_append (System.run_append (System.run_append hlinked hrun₇) hrun₈) hrun₉

theorem messages_left_behind :
    ∃ s, (segmentedSystem Unit ℕ segmentSize).run (leftBehind segmentSize) = some s ∧
      s.Quiescent () ∧ s.called 0 = (List.range 257).map ((), ·) ∧
      s.answers () = [some 256, none] ∧ ¬s.Delivers segmentSize := by
  have hn : 0 < segmentSize := by decide
  obtain ⟨s, hrun, h, hanswers⟩ := leftBehind_run hn
  refine ⟨s, hrun, ⟨h.producers, h.consumer⟩, h.called, hanswers, fun hdelivers => ?_⟩
  have horder := hdelivers.in_order ()
  rw [hanswers, h.sent, range_succ_eq_map] at horder
  have hfirst := (cons_prefix_cons.mp horder).1
  exact absurd hfirst (by decide)

end Loss
end SegmentedMailboxes
end GoAkt.Actor
