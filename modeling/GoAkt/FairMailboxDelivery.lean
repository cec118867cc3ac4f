import GoAkt.FairMailboxService

/-!
# What the fair mailbox delivers

As long as no access of `Dequeue` loses a sender, the senders with messages are on the queue of
active senders whenever no call is in progress, and `Dequeue` alone returns all messages: no
call gets stuck, each ends after at most 24 accesses, and the calls needed are bounded.
-/
namespace GoAkt.Actor.UnboundedFairMailbox
open GoAkt.Interleavings GoAkt.LinkedQueues List Memory Option
variable {κ μ : Type}

/-! ## Calls end -/

def consumerStage {κ : Type} : Consumer κ → ℕ
  | .idle => 0
  | .loaded _ => 1
  | .found _ _ => 2
  | .retiring _ _ valueErased nextErased => 3 + valueErased.toNat + nextErased.toNat

def pushStage {κ μ : Type} : Producer κ μ → ℕ
  | .idle => 0
  | .acquired _ => 1
  | .written _ _ => 2
  | .cleared _ _ => 3
  | .swapped _ _ _ => 4

/-- How far the `Dequeue` call is. -/
def stage (s : UnboundedFairMailbox κ μ) : ℕ :=
  match s.consumer with
  | .idle => 0
  | .popping => consumerStage (s.activeSenders.consumers ())
  | .popped _ => 1 + consumerStage (s.activeSenders.consumers ())
  | .draining k => 7 + consumerStage (s.mailboxes.consumers k)
  | .deactivating _ => 13
  | .discounting _ => 13
  | .settling _ => 14
  | .resetting _ => 15
  | .finishing _ => 16
  | .rechecking _ => 17
  | .reactivating _ => 18
  | .pushing _ => 19 + pushStage (s.activeSenders.producers none)

lemma consumerStage_le {κ : Type} (phase : Consumer κ) : consumerStage phase ≤ 5 := by
  cases phase with
  | retiring old next x y =>
    have hx := x.toNat_le
    have hy := y.toNat_le
    rw [consumerStage]
    omega
  | _ => simp [consumerStage]

lemma pushStage_le {κ μ : Type} (phase : Producer κ μ) : pushStage phase ≤ 4 := by
  cases phase <;> simp [pushStage]

lemma stage_lt (s : UnboundedFairMailbox κ μ) : s.stage < 24 := by
  have hpopper := consumerStage_le (s.activeSenders.consumers ())
  have hpush := pushStage_le (s.activeSenders.producers none)
  unfold stage
  split
  next => omega
  next => omega
  next => omega
  next k hc =>
    have hdrainer := consumerStage_le (s.mailboxes.consumers k)
    omega
  all_goals omega

variable {s s' : UnboundedFairMailbox κ μ}

/-- A call that ends leaves all stages of the calls before it behind. -/
lemma lt_finishCall (hcalls : s'.calls = s.calls) :
    24 * s.calls + s.stage < 24 * s'.finishCall.calls + s'.finishCall.stage := by
  have hlt := s.stage_lt
  change _ < 24 * (s'.calls + 1) + 0
  omega

variable {k : κ}

lemma pushStage_push {a a' : Memory Unit (Option ℕ) κ} {who place : Option ℕ}
    (hlast : isLast (a.producers who) = false) (hop : push a who k place = some a') :
    pushStage (a.producers who) < pushStage (a'.producers who) := by
  unfold push at hop
  split at hop
  next hwho =>
    obtain ⟨-, rfl | ⟨i, v, -, rfl⟩⟩ := acquire_inv hop
    · rw [hwho, setProducer_self]
      exact Nat.lt_succ_self 0
    · rw [hwho, setProducer_self]
      exact Nat.lt_succ_self 0
  next hwho =>
    obtain ⟨v, -, rfl⟩ := write_inv hop
    rw [hwho, setProducer_self]
    exact Nat.lt_succ_self 1
  next hwho =>
    obtain ⟨v, k', -, rfl⟩ := clear_inv hop
    rw [hwho, setProducer_self]
    exact Nat.lt_succ_self 2
  next hwho =>
    obtain ⟨v, k', -, rfl⟩ := swap_inv hop
    rw [hwho, setProducer_self]
    exact Nat.lt_succ_self 3
  next hwho =>
    rw [hwho] at hlast
    cases hlast

lemma pop_progress (hc : s.consumer = .popping) (hstep : s.pop = some s') :
    24 * s.calls + s.stage < 24 * s'.calls + s'.stage := by
  unfold pop at hstep
  split at hstep <;> try cases hstep
  next head hhead =>
    obtain ⟨a, hop, rfl⟩ := map_eq_some_iff.mp hstep
    split_ifs with hnext
    · exact lt_finishCall rfl
    · obtain ⟨head', hhead', rfl⟩ := loadNext_inv hop
      cases hhead.symm.trans hhead'
      obtain ⟨n, hn⟩ := ne_none_iff_exists'.mp (by simpa using hnext)
      simp [stage, hc, setActiveSenders, hhead, hn, consumerStage]
  next head next hhead =>
    obtain ⟨a, hop, rfl⟩ := map_eq_some_iff.mp hstep
    obtain ⟨head', next', -, rfl⟩ := storeHead_inv hop
    simp [stage, hc, setActiveSenders, hhead, consumerStage]
  next old next x y hhead => simp [stage, hc, setConsumer]

lemma retire_progress {sender : Option κ} (hc : s.consumer = .popped sender) {keep : Bool}
    (hstep : s.retire sender keep = some s') :
    24 * s.calls + s.stage < 24 * s'.calls + s'.stage := by
  unfold retire at hstep
  split at hstep <;> try cases hstep
  all_goals obtain ⟨a, hop, rfl⟩ := map_eq_some_iff.mp hstep
  next old next x hhead =>
    obtain ⟨old', next', x', y', hhead', rfl⟩ := eraseNext_inv hop
    cases hhead.symm.trans hhead'
    simp [stage, hc, setActiveSenders, hhead, consumerStage]
  next old next hhead =>
    obtain ⟨old', next', x', y', hhead', rfl⟩ := eraseValue_inv hop
    cases hhead.symm.trans hhead'
    simp [stage, hc, setActiveSenders, hhead, consumerStage]
  next old next hhead =>
    cases sender with
    | none => exact lt_finishCall rfl
    | some k =>
      have hle := consumerStage_le (s.activeSenders.consumers ())
      have hstage : s.stage = 1 + consumerStage (s.activeSenders.consumers ()) := by
        rw [stage, hc]
      change _ < 24 * s.calls + (7 + consumerStage (s.mailboxes.consumers k))
      omega

lemma push_isSome (a : Memory Unit (Option ℕ) κ) (who : Option ℕ) (k : κ) :
    (push a who k none).isSome := by
  cases hwho : a.producers who <;>
    simp [push, hwho, Memory.acquire, Memory.write, Memory.clear, Memory.swap, Memory.link]

variable [DecidableEq κ]

lemma drain_progress (hc : s.consumer = .draining k) {contextPoolSize : ℕ}
    (hstep : s.drain contextPoolSize k = some s') :
    24 * s.calls + s.stage < 24 * s'.calls + s'.stage := by
  unfold drain at hstep
  split at hstep <;> obtain ⟨m, hop, rfl⟩ := map_eq_some_iff.mp hstep
  next hhead =>
    obtain ⟨-, rfl⟩ := loadHead_inv hop
    simp [stage, hc, setMailboxes, hhead, consumerStage]
  next head hhead =>
    obtain ⟨head', hhead', rfl⟩ := loadNext_inv hop
    cases hhead.symm.trans hhead'
    split_ifs with hnext
    · simp [stage, hc, setMailboxes, setConsumer, hhead, consumerStage]
    · obtain ⟨n, hn⟩ := ne_none_iff_exists'.mp (by simpa using hnext)
      simp [stage, hc, setMailboxes, setConsumer, hhead, hn, consumerStage]
  next head next hhead =>
    obtain ⟨head', next', -, rfl⟩ := storeHead_inv hop
    simp [stage, hc, setMailboxes, hhead, consumerStage]
  next old next y hhead =>
    obtain ⟨old', next', x', y', hhead', rfl⟩ := eraseValue_inv hop
    cases hhead.symm.trans hhead'
    simp [stage, hc, setMailboxes, hhead, consumerStage]
  next old next hhead =>
    obtain ⟨old', next', x', y', hhead', rfl⟩ := eraseNext_inv hop
    cases hhead.symm.trans hhead'
    simp [stage, hc, setMailboxes, hhead, consumerStage]
  next old next hhead => simp [stage, hc, deliver, hhead, consumerStage]

lemma dequeue_progress {contextPoolSize : ℕ} {place : Option ℕ} {keep : Bool}
    (hstep : s.dequeue contextPoolSize place keep = some s') :
    24 * s.calls + s.stage < 24 * s'.calls + s'.stage := by
  unfold dequeue at hstep
  split at hstep <;> try cases hstep
  next hc =>
    obtain ⟨a, hop, rfl⟩ := map_eq_some_iff.mp hstep
    obtain ⟨-, rfl⟩ := loadHead_inv hop
    simp [stage, hc, setActiveSenders, setConsumer, consumerStage]
  next hc => exact pop_progress hc hstep
  next hc => exact retire_progress hc hstep
  next hc => exact drain_progress hc hstep
  next hc => exact lt_finishCall rfl
  next hc => simp [stage, hc, setConsumer]
  next hc =>
    split_ifs
    · simp only [stage, hc, setConsumer, setPending]
      omega
    · simp [stage, hc, setConsumer, setPending]
    · simp [stage, hc, setConsumer, setPending]
  next hc => simp [stage, hc, setConsumer, setPending]
  next hc => simp [stage, hc, setConsumer, setActive]
  next hc =>
    split_ifs
    · simp [stage, hc, setConsumer]
    · exact lt_finishCall rfl
  next hc =>
    split_ifs
    · exact lt_finishCall rfl
    · simp only [stage, hc, setConsumer, setActive]
      omega
  next hc =>
    obtain ⟨a, hop, rfl⟩ := map_eq_some_iff.mp hstep
    split_ifs with hlast
    · exact lt_finishCall rfl
    · have hpush := pushStage_push (by simpa using hlast) hop
      simpa [stage, hc, setActiveSenders] using hpush

lemma drain_isSome (contextPoolSize : ℕ) (k : κ) : (s.drain contextPoolSize k).isSome := by
  unfold drain
  split
  next hhead => simp [Memory.loadHead, hhead]
  next hhead => simp [Memory.loadNext, hhead]
  next hhead => simp [Memory.storeHead, hhead]
  next hhead => simp [Memory.eraseValue, hhead]
  next hhead => simp [Memory.eraseNext, hhead]
  next hhead => simp [Memory.release, hhead]

/-- No call gets stuck. -/
lemma Wired.dequeue_isSome {deriveSenderKey : μ → κ} (hw : s.Wired deriveSenderKey)
    (contextPoolSize : ℕ) : (s.dequeue contextPoolSize none true).isSome := by
  have hpop := hw.consumer.popping
  unfold UnboundedFairMailbox.dequeue
  split
  next hc =>
    rw [hc] at hpop
    have hidle : s.activeSenders.consumers () = .idle := hpop
    simp [Memory.loadHead, hidle]
  next hc =>
    rw [hc] at hpop
    have hbusy : s.activeSenders.consumers () ≠ .idle := hpop
    cases hhead : s.activeSenders.consumers () with
    | idle => exact absurd hhead hbusy
    | loaded head => simp [UnboundedFairMailbox.pop, hhead, Memory.loadNext]
    | found head next => simp [UnboundedFairMailbox.pop, hhead, Memory.storeHead]
    | retiring old next x y => simp [UnboundedFairMailbox.pop, hhead]
  next sender hc =>
    rw [hc] at hpop
    obtain ⟨⟨old, next, x, y, hhead⟩, -⟩ := hpop
    cases y with
    | false => simp [UnboundedFairMailbox.retire, hhead, Memory.eraseNext]
    | true =>
      cases x with
      | false => simp [UnboundedFairMailbox.retire, hhead, Memory.eraseValue]
      | true => simp [UnboundedFairMailbox.retire, hhead, Memory.release]
  next k hc => exact drain_isSome contextPoolSize k
  next => rfl
  next => rfl
  next => rfl
  next => rfl
  next => rfl
  next => rfl
  next => rfl
  next k hc =>
    rw [isSome_map]
    exact push_isSome s.activeSenders none k

/-! ## Every message is returned -/

/-- `Dequeue` calls and nothing else, from a state on. -/
def serving (contextPoolSize : ℕ) (s : UnboundedFairMailbox κ μ) :
    System (UnboundedFairMailbox κ μ) (Option ℕ × Bool) where
  start := s
  step s access := s.dequeue contextPoolSize access.1 access.2

/-- No call is in progress. -/
structure Quiescent (s : UnboundedFairMailbox κ μ) : Prop where
  enqueue : ∀ p, s.producers p = .idle
  dequeue : s.consumer = .idle

variable {deriveSenderKey : μ → κ} {contextPoolSize : ℕ}

omit [DecidableEq κ] in
lemma Quiescent.quiet (hq : s.Quiescent) : s.protocol.Quiet := by
  refine ⟨fun p => ?_, ?_⟩
  · change turn (s.producers p) _ _ = .away
    rw [hq.enqueue p]
    rfl
  · change consumerTurn s.consumer _ = .away
    rw [hq.dequeue]
    rfl

/-- What `Dequeue` calls keep and how far they get. -/
structure Served (deriveSenderKey : μ → κ) (s : UnboundedFairMailbox κ μ) (budget : ℕ)
    (accesses : ℕ) (s' : UnboundedFairMailbox κ μ) : Prop where
  wired : s'.Wired deriveSenderKey
  producers : ∀ p, s'.producers p = .idle
  sent : s'.sent = s.sent
  draining : s'.protocol.Draining budget
  progress : accesses ≤ 24 * s'.calls + s'.stage

lemma served_run {budget : ℕ} (hw : s.Wired deriveSenderKey) (hidle : ∀ p, s.producers p = .idle)
    (hdraining : s.protocol.Draining budget) {accesses : List (Option ℕ × Bool)}
    (hrun : (serving contextPoolSize s).run accesses = some s') :
    Served deriveSenderKey s budget accesses.length s' := by
  refine System.run_induction (P := fun accesses s' =>
    Served deriveSenderKey s budget accesses.length s') ?_
    (fun accesses t e t' _ h hstep => ?_) hrun
  · exact ⟨hw, hidle, rfl, hdraining, Nat.zero_le _⟩
  · obtain ⟨hwired, hserves⟩ := h.wired.dequeue hstep
    have hprogress := dequeue_progress hstep
    refine ⟨hwired, fun p => ?_, hserves.sent.trans h.sent, ?_, ?_⟩
    · rw [hserves.producers]
      exact h.producers p
    · rcases hserves.follows with heq | ⟨e, hstep', -, halone⟩
      · rw [heq]
        exact h.draining
      · exact h.draining.step (halone h.producers) hstep'
    · rw [length_append, length_singleton]
      exact (Nat.succ_le_succ h.progress).trans hprogress

/-- What was sent and returned agrees for each sender, hence in all. -/
lemma Logged.perm (h : s.Logged deriveSenderKey)
    (hall : ∀ k, s.delivered.filter (fromSender deriveSenderKey k) =
      (s.sent.map some).filter (fromSender deriveSenderKey k)) :
    s.delivered.Perm (s.sent.map some) := by
  classical
  rw [perm_iff_count]
  intro msg
  cases msg with
  | none =>
    have hsent : none ∉ s.sent.map some := by simp
    rw [count_eq_zero_of_not_mem h.genuine, count_eq_zero_of_not_mem hsent]
  | some msg =>
    have hkey : fromSender deriveSenderKey (deriveSenderKey msg) (some msg) = true := by
      simp [fromSender]
    rw [← count_filter hkey, hall, count_filter hkey]

/-- The senders with messages are on the queue once, `Dequeue` returns all messages, those of a
sender in the order in which they were sent, and the length is right. -/
structure StrandsNobody (deriveSenderKey : μ → κ) (contextPoolSize : ℕ)
    (s : UnboundedFairMailbox κ μ) : Prop where
  queued : ∀ k, (s.mailboxes.next (s.mailboxes.head k)).isSome →
    ∃ nodes, s.activeSenders.Behind (s.activeSenders.head ()) nodes ∧
      (nodes.map s.activeSenders.value).count (some k) = 1
  unstuck : ∀ accesses s', (serving contextPoolSize s).run accesses = some s' →
    ∃ s'', s'.dequeue contextPoolSize none true = some s''
  returned : ∃ n, ∀ accesses s', n ≤ accesses.length →
    (serving contextPoolSize s).run accesses = some s' →
    s'.delivered.Perm (s.sent.map some) ∧
      ∀ k, s'.delivered.filter (fromSender deriveSenderKey k) =
        (s.sent.map some).filter (fromSender deriveSenderKey k)
  length_eq : s.length = s.sent.length - s.delivered.length

section
variable (hq : s.Quiescent) (hw : s.Wired deriveSenderKey) (hsound : s.protocol.Sound)
include hq hw hsound

lemma Quiescent.queued (hk : (s.mailboxes.next (s.mailboxes.head k)).isSome) :
    ∃ nodes, s.activeSenders.Behind (s.activeSenders.head ()) nodes ∧
      (nodes.map s.activeSenders.value).count (some k) = 1 := by
  have hfits := hw.consumer
  rw [hq.dequeue] at hfits
  have hpopper : s.activeSenders.consumers () = .idle := hfits.popping
  have hdrainer : s.mailboxes.consumers k = .idle := by
    by_contra hne
    cases hfits.draining hne
  have hlt : s.protocol.taken k < s.protocol.stored k := by
    obtain ⟨n, hn⟩ := isSome_iff_exists.mp hk
    obtain ⟨rest, hrest⟩ := hw.mailboxes.linked.chain_eq hn (hw.mailboxes.owned.chain_nodup k)
    have hlogged := congrArg List.length (hw.mailboxes.filled.logged k)
    rw [Memory.unreturned, hdrainer, hrest] at hlogged
    simp only [length_map, length_append, Consumer.held, isSome_none,
      Bool.false_eq_true, if_false, tail_cons, length_cons] at hlogged
    change (s.mailboxes.returned k).length < (s.mailboxes.enqueued k).length
    omega
  have hcount : (s.activeSenders.waiting ()).count k = 1 := hq.quiet.count_waiting hsound hlt
  refine ⟨_, hw.activeSenders.linked.behind_head (hw.no_gap (hq.dequeue ▸ nofun) hq.enqueue), ?_⟩
  have hmap := hw.activeSenders.map_waiting ()
  rw [Memory.unreturned, hpopper] at hmap
  change _ = (s.activeSenders.chain ()).tail.map s.activeSenders.value at hmap
  rw [← hmap, count_map_of_injective _ _ (some_injective κ), hcount]

lemma Quiescent.strandsNobody : s.StrandsNobody deriveSenderKey contextPoolSize where
  queued _ hk := hq.queued hw hsound hk
  unstuck accesses s' hrun := by
    have hserved := served_run hw hq.enqueue (hq.quiet.draining hsound) hrun
    exact isSome_iff_exists.mp (hserved.wired.dequeue_isSome contextPoolSize)
  returned := by
    refine ⟨24 * (s.protocol.calls + s.protocol.work + 2), fun accesses s' hlen hrun => ?_⟩
    have hserved := served_run hw hq.enqueue (hq.quiet.draining hsound) hrun
    have hcalls : s.protocol.calls + s.protocol.work < s'.protocol.calls := by
      have hprogress := hserved.progress
      have hstage := s'.stage_lt
      change _ < s'.calls + ending s'.consumer (s'.activeSenders.producers none)
      omega
    have hall : ∀ k, s'.delivered.filter (fromSender deriveSenderKey k) =
        (s'.sent.map some).filter (fromSender deriveSenderKey k) := by
      intro k
      have htaken : (s'.mailboxes.returned k).length = (s'.mailboxes.enqueued k).length :=
        hserved.draining.finished hcalls k
      rw [← hserved.wired.logged.delivered, ← hserved.wired.logged.sent]
      refine (hserved.wired.mailboxes.returned_isPrefix k).eq_of_length ?_
      rw [htaken, length_map]
    rw [← hserved.sent]
    exact ⟨hserved.wired.logged.perm hall, hall⟩
  length_eq := hq.quiet.length_eq hsound.balanced

end

/-! ## Runs -/

lemma Follows.sound (h : Follows s s') (hsound : s.protocol.Sound) : s'.protocol.Sound := by
  rcases h with heq | ⟨e, hstep, hok⟩
  · rw [heq]
    exact hsound
  · exact hsound.step hok hstep

lemma Serves.sound (h : Serves s s') (hsound : s.protocol.Sound) (hok : ¬s.LosesSender) :
    s'.protocol.Sound := by
  rcases h.follows with heq | ⟨e, hstep, hstrands, -⟩
  · rw [heq]
    exact hsound
  · exact hsound.consumerStep (fun h => hok (hstrands h)) hstep

/-- The steps that lose a sender. -/
def Strands (s : UnboundedFairMailbox κ μ) : FairEvent μ → Prop
  | .dequeue _ _ => s.LosesSender
  | _ => False

lemma wired_start : (fairSystem deriveSenderKey contextPoolSize).start.Wired deriveSenderKey :=
  ⟨sound_empty _, sound_empty _, fun _ => ⟨nofun, nofun, nofun, nofun, nofun, nofun⟩,
    ⟨nofun, nofun, nofun, rfl, fun h => absurd rfl h⟩, ⟨fun _ => rfl, fun _ => rfl, nofun⟩⟩

lemma sound_step {e : FairEvent μ} (hw : s.Wired deriveSenderKey) (hsound : s.protocol.Sound)
    (hok : ¬s.Strands e) (hstep : s.step deriveSenderKey contextPoolSize e = some s') :
    s'.Wired deriveSenderKey ∧ s'.protocol.Sound := by
  cases e with
  | getContext p =>
    rw [step] at hstep
    split_ifs at hstep with hp
    obtain ⟨m, hop, rfl⟩ := map_eq_some_iff.mp hstep
    obtain ⟨hwired, hfollows⟩ := hw.getContext hp hop
    exact ⟨hwired, hfollows.sound hsound⟩
  | build p msg =>
    rw [step] at hstep
    split_ifs at hstep with hp
    obtain ⟨m, hop, rfl⟩ := map_eq_some_iff.mp hstep
    obtain ⟨hwired, hfollows⟩ := hw.build hp hop
    exact ⟨hwired, hfollows.sound hsound⟩
  | enqueue p place =>
    obtain ⟨hwired, hfollows⟩ := hw.enqueue hstep
    exact ⟨hwired, hfollows.sound hsound⟩
  | dequeue place keep =>
    obtain ⟨hwired, hserves⟩ := hw.dequeue hstep
    exact ⟨hwired, hserves.sound hsound hok⟩

lemma sound_run {events : List (FairEvent μ)}
    (hrun : (fairSystem deriveSenderKey contextPoolSize).run events = some s)
    (hok : ¬(fairSystem deriveSenderKey contextPoolSize).Took Strands events) :
    s.Wired deriveSenderKey ∧ s.protocol.Sound :=
  @System.safe_invariant _ _ _ _ (fun s => s.Wired deriveSenderKey ∧ s.protocol.Sound)
    ⟨wired_start, Activation.sound_start⟩
    (fun _ _ _ h hstep hok => sound_step h.1 h.2 hok hstep) _ _ hok hrun

theorem fair_mailbox_strands_nobody (deriveSenderKey : μ → κ) (contextPoolSize : ℕ)
    (events : List (FairEvent μ)) (s : UnboundedFairMailbox κ μ)
    (hrun : (fairSystem deriveSenderKey contextPoolSize).run events = some s)
    (hok : ¬(fairSystem deriveSenderKey contextPoolSize).Took Strands events)
    (hquiet : s.Quiescent) : s.StrandsNobody deriveSenderKey contextPoolSize := by
  obtain ⟨hw, hsound⟩ := sound_run hrun hok
  exact hquiet.strandsNobody hw hsound

/-- A sufficient test for a step that loses no sender. -/
def keepsSenders (s : UnboundedFairMailbox κ μ) (_ : FairEvent μ) : Bool :=
  match s.consumer with
  | .deactivating k => s.pending k ≤ 0
  | .resetting k => s.pending k ≤ 0
  | _ => true

omit [DecidableEq κ] in
lemma not_strands_of_keepsSenders (s : UnboundedFairMailbox κ μ) (e : FairEvent μ)
    (htest : s.keepsSenders e = true) : ¬s.Strands e := by
  intro hstrands
  cases e with
  | dequeue place keep =>
    obtain ⟨k, hpos, ⟨hc, -⟩ | hc⟩ := hstrands
    · simp only [keepsSenders, hc, decide_eq_true_eq] at htest
      omega
    · simp only [keepsSenders, hc, decide_eq_true_eq] at htest
      omega
  | _ => exact hstrands

/-- A sender sends two messages, and one of them is returned. -/
def twoMessages : List (FairEvent ℕ) :=
  [.getContext 0, .build 0 7] ++ List.replicate 13 (.enqueue 0 none) ++
    [.getContext 0, .build 0 8] ++ List.replicate 6 (.enqueue 0 none) ++
    List.replicate 20 (.dequeue none true)

theorem fair_mailbox_strands_nobody_twoMessages :
    ∃ s, (fairSystem (fun _ => ()) 2).run twoMessages = some s ∧ s.delivered = [some 7] ∧
      s.length = 1 ∧ s.Quiescent ∧ s.StrandsNobody (fun _ => ()) 2 := by
  have hguarded : ∃ s,
      ((fairSystem (fun _ => ()) 2).guarded keepsSenders).run twoMessages = some s ∧
      s.delivered = [some 7] ∧ s.length = 1 ∧ s.Quiescent :=
    ⟨_, rfl, rfl, rfl, fun p => by rcases p with _ | p <;> rfl, rfl⟩
  obtain ⟨s, hrun, hdelivered, hlength, hquiet⟩ := hguarded
  obtain ⟨hrun, hok⟩ := System.not_took_of_guarded not_strands_of_keepsSenders hrun
  exact ⟨s, hrun, hdelivered, hlength, hquiet,
    fair_mailbox_strands_nobody (fun _ => ()) 2 twoMessages s hrun hok hquiet⟩

/-- Two producers of one sender. The first has swapped the tail of the sender's mailbox and not
linked its message when the second sends its own and activates the sender. `Dequeue` finds the
mailbox empty and marks the sender inactive; the first then makes the counter 2. -/
def unlinkedMessage : List (FairEvent ℕ) :=
  [.getContext 0, .build 0 7] ++ List.replicate 4 (.enqueue 0 none) ++
    [.getContext 1, .build 1 8] ++ List.replicate 12 (.enqueue 1 none) ++
    List.replicate 10 (.dequeue none true) ++ List.replicate 3 (.enqueue 0 none)

theorem sender_stranded :
    ∃ s, (fairSystem (fun _ => ()) 2).run unlinkedMessage = some s ∧ s.Quiescent ∧
      s.sent = [7, 8] ∧ s.delivered = [] ∧
      (s.mailboxes.next (s.mailboxes.head ())).isSome ∧
      s.activeSenders.next (s.activeSenders.head ()) = none ∧
      ¬s.StrandsNobody (fun _ => ()) 2 := by
  refine ⟨_, rfl, ⟨fun p => by rcases p with _ | _ | p <;> rfl, rfl⟩, rfl, rfl, rfl, rfl,
    fun h => ?_⟩
  obtain ⟨nodes, hbehind, hcount⟩ := h.queued () rfl
  cases nodes with
  | nil => cases hcount
  | cons node nodes => cases hbehind.1

end GoAkt.Actor.UnboundedFairMailbox
