import GoAkt.UnboundedFairMailbox

/-!
# The fair mailbox follows the protocol of its senders

What the calls have loaded agrees with the memory, and every access of a call is a step of
the protocol or changes nothing in it.
-/
namespace GoAkt.Actor.UnboundedFairMailbox
open GoAkt.Interleavings GoAkt.LinkedQueues Function List Memory
variable {κ μ : Type}

/-! ## The protocol state of a mailbox -/

def turn : EnqueuePhase κ → Producer κ μ → Producer Unit κ → ProducerTurn κ
  | .linking k, mailbox, _ => if isLast mailbox then .stored k else .away
  | .counting k, _, _ => .stored k
  | .announcing k, _, _ => .counted k
  | .activating k, _, _ => .activating k
  | .pushing k, _, queue => if isLast queue then .away else .pushing k
  | _, _, _ => .away

def consumerTurn : DequeuePhase κ → Producer Unit κ → ConsumerTurn κ
  | .draining k, _ => .holding k
  | .deactivating k, _ => .missing k
  | .discounting k, _ => .took k
  | .settling k, _ => .discounted k
  | .resetting k, _ => .resetting k
  | .finishing k, _ => .finishing k
  | .rechecking k, _ => .rechecking k
  | .reactivating k, _ => .reactivating k
  | .pushing k, queue => if isLast queue then .away else .pushing k
  | _, _ => .away

/-- A call that has swapped the tail of the senders' queue is over for the protocol. -/
def ending : DequeuePhase κ → Producer Unit κ → ℕ
  | .pushing _, queue => if isLast queue then 1 else 0
  | _, _ => 0

def turnOf (s : UnboundedFairMailbox κ μ) (p : ℕ) : ProducerTurn κ :=
  turn (s.producers p) (s.mailboxes.producers p) (s.activeSenders.producers (some p))

def protocol (s : UnboundedFairMailbox κ μ) : Activation κ where
  active := s.active
  pending := s.pending
  length := s.length
  stored k := (s.mailboxes.enqueued k).length
  taken k := (s.mailboxes.returned k).length
  undelivered := s.sent.length - s.delivered.length
  pushed := s.activeSenders.enqueued ()
  popped := (s.activeSenders.returned ()).length
  producers := s.turnOf
  consumer := consumerTurn s.consumer (s.activeSenders.producers none)
  calls := s.calls + ending s.consumer (s.activeSenders.producers none)

/-! ## Calls and memory -/

/-- What an `Enqueue` call has done with its context and with the node of the sender. -/
structure Fits (deriveSenderKey : μ → κ) (phase : EnqueuePhase κ) (mailbox : Producer κ μ)
    (queue : Producer Unit κ) : Prop where
  written : ∀ {v msg k}, mailbox = .written v msg → phase = .storing k ∨ phase = .linking k →
    k = deriveSenderKey msg
  cleared : ∀ {v msg}, mailbox = .cleared v msg → phase = .linking (deriveSenderKey msg)
  swapped : ∀ {q a b}, mailbox = .swapped q a b → phase = .linking q
  pushWritten : ∀ {v k}, queue = .written v k → phase = .pushing k
  pushCleared : ∀ {v k}, queue = .cleared v k → phase = .pushing k
  pushSwapped : ∀ {q a b}, queue = .swapped q a b → ∃ k, phase = .pushing k

/-- What the `Dequeue` call has done on the queue of senders. -/
def PopFits : DequeuePhase κ → Consumer Unit → List κ → Prop
  | .popping, popper, _ => popper ≠ .idle
  | .popped sender, popper, waiting => (∃ old next a b, popper = .retiring old next a b) ∧
      ∃ k rest, sender = some k ∧ waiting = k :: rest
  | _, popper, _ => popper = .idle

structure CallerFits (phase : DequeuePhase κ) (queue : Producer Unit κ) (popper : Consumer Unit)
    (waiting : List κ) (drainers : κ → Consumer κ) : Prop where
  pushWritten : ∀ {v k}, queue = .written v k → phase = .pushing k
  pushCleared : ∀ {v k}, queue = .cleared v k → phase = .pushing k
  pushSwapped : ∀ {q a b}, queue = .swapped q a b → ∃ k, phase = .pushing k
  popping : PopFits phase popper waiting
  draining : ∀ {k}, drainers k ≠ .idle → phase = .draining k

lemma PopFits.append {phase : DequeuePhase κ} {popper : Consumer Unit} {waiting : List κ}
    (h : PopFits phase popper waiting) (l : List κ) : PopFits phase popper (waiting ++ l) := by
  cases phase with
  | popped sender =>
    obtain ⟨hpopper, k, rest, hk, rfl⟩ := h
    exact ⟨hpopper, k, rest ++ l, hk, rfl⟩
  | _ => exact h

/-- A call that neither fills its context nor pushes a sender moves on. -/
lemma Fits.move {phase phase' : EnqueuePhase κ} (h : Fits deriveSenderKey phase mailbox queue)
    (hlinking : ∀ k, phase ≠ .linking k) (hpushing : ∀ k, phase ≠ .pushing k)
    (hwritten : ∀ v msg k, mailbox = .written v msg → phase' = .storing k ∨ phase' = .linking k →
      k = deriveSenderKey msg) : Fits deriveSenderKey phase' mailbox queue where
  written hm hk := hwritten _ _ _ hm hk
  cleared hm := absurd (h.cleared hm) (hlinking _)
  swapped hm := absurd (h.swapped hm) (hlinking _)
  pushWritten hq := absurd (h.pushWritten hq) (hpushing _)
  pushCleared hq := absurd (h.pushCleared hq) (hpushing _)
  pushSwapped hq := by
    obtain ⟨k, hk⟩ := h.pushSwapped hq
    exact absurd hk (hpushing k)

lemma isLast_iff {κ μ : Type} (phase : Producer κ μ) :
    isLast phase = true ↔ ∃ q a b, phase = .swapped q a b := by
  cases phase <;> simp [isLast]

lemma Fits.not_isLast
    (h : Fits deriveSenderKey phase mailbox queue) (hphase : ∀ k, phase ≠ .linking k) :
    isLast mailbox = false := by
  by_contra hlast
  obtain ⟨q, a, b, hm⟩ := (isLast_iff mailbox).mp (by simpa using hlast)
  exact hphase q (h.swapped hm)

lemma Fits.queue_not_isLast (h : Fits deriveSenderKey phase mailbox queue)
    (hphase : ∀ k, phase ≠ .pushing k) : isLast queue = false := by
  by_contra hlast
  obtain ⟨q, a, b, hq⟩ := (isLast_iff queue).mp (by simpa using hlast)
  obtain ⟨k, hk⟩ := h.pushSwapped hq
  exact hphase k hk

variable [DecidableEq κ]

/-- The messages of a sender. -/
def fromSender (deriveSenderKey : μ → κ) (k : κ) (msg : Option μ) : Bool :=
  msg.map deriveSenderKey = some k

structure Logged (deriveSenderKey : μ → κ) (s : UnboundedFairMailbox κ μ) : Prop where
  sent : ∀ k, (s.mailboxes.enqueued k).map some =
    (s.sent.map some).filter (fromSender deriveSenderKey k)
  delivered : ∀ k, s.mailboxes.returned k = s.delivered.filter (fromSender deriveSenderKey k)
  genuine : none ∉ s.delivered

structure Wired (deriveSenderKey : μ → κ) (s : UnboundedFairMailbox κ μ) : Prop where
  mailboxes : s.mailboxes.Sound
  activeSenders : s.activeSenders.Sound
  producer : ∀ p, Fits deriveSenderKey (s.producers p) (s.mailboxes.producers p)
    (s.activeSenders.producers (some p))
  consumer : CallerFits s.consumer (s.activeSenders.producers none)
    (s.activeSenders.consumers ()) (s.activeSenders.waiting ()) s.mailboxes.consumers
  logged : s.Logged deriveSenderKey

/-- A step of the mailbox is one of the protocol, or none. -/
def Follows (s s' : UnboundedFairMailbox κ μ) : Prop :=
  s'.protocol = s.protocol ∨ ∃ e, s.protocol.step e = some s'.protocol ∧ ¬s.protocol.Strands e

/-- What every step of a producer is to do. -/
abbrev Produced (deriveSenderKey : μ → κ) (s s' : UnboundedFairMailbox κ μ) : Prop :=
  s'.Wired deriveSenderKey ∧ Follows s s'

/-! ## Steps of a producer -/

section Producers
variable {deriveSenderKey : μ → κ} {s s' : UnboundedFairMailbox κ μ} {p : ℕ} {k : κ}

/-- What a step of one producer leaves alone. -/
structure MovesOnly (p : ℕ) (s s' : UnboundedFairMailbox κ μ) : Prop where
  phase : ∀ p', p' ≠ p → s'.producers p' = s.producers p'
  mailbox : ∀ p', p' ≠ p → s'.mailboxes.producers p' = s.mailboxes.producers p'
  queue : ∀ who, who ≠ some p → s'.activeSenders.producers who = s.activeSenders.producers who
  consumer : s'.consumer = s.consumer
  popper : s'.activeSenders.consumers = s.activeSenders.consumers
  drainers : s'.mailboxes.consumers = s.mailboxes.consumers

omit [DecidableEq κ] in
lemma MovesOnly.turnOf (h : MovesOnly p s s') : s'.turnOf = update s.turnOf p (s'.turnOf p) := by
  funext p'
  by_cases hp : p' = p
  · subst hp
    rw [update_self]
  · rw [update_of_ne hp, UnboundedFairMailbox.turnOf, h.phase p' hp, h.mailbox p' hp,
      h.queue (some p') (by simpa using hp)]
    rfl

lemma MovesOnly.wired (h : MovesOnly p s s') (hw : s.Wired deriveSenderKey)
    (hmailboxes : s'.mailboxes.Sound) (hsenders : s'.activeSenders.Sound)
    (hfits : Fits deriveSenderKey (s'.producers p) (s'.mailboxes.producers p)
      (s'.activeSenders.producers (some p)))
    (l : List κ) (hwaiting : s'.activeSenders.waiting () = s.activeSenders.waiting () ++ l)
    (hlogged : s'.Logged deriveSenderKey) : s'.Wired deriveSenderKey where
  mailboxes := hmailboxes
  activeSenders := hsenders
  producer p' := by
    by_cases hp : p' = p
    · subst hp
      exact hfits
    · rw [h.phase p' hp, h.mailbox p' hp, h.queue (some p') (by simpa using hp)]
      exact hw.producer p'
  consumer := by
    rw [h.consumer, h.queue none nofun, h.popper, h.drainers, hwaiting]
    exact ⟨hw.consumer.pushWritten, hw.consumer.pushCleared, hw.consumer.pushSwapped,
      hw.consumer.popping.append l, hw.consumer.draining⟩
  logged := hlogged

omit [DecidableEq κ] in
/-- A step of a producer that the protocol does not see. -/
lemma MovesOnly.silent (h : MovesOnly p s s') (hactive : s'.active = s.active)
    (hpending : s'.pending = s.pending) (hlength : s'.length = s.length)
    (henqueued : s'.mailboxes.enqueued = s.mailboxes.enqueued)
    (hreturned : s'.mailboxes.returned = s.mailboxes.returned) (hsent : s'.sent = s.sent)
    (hdelivered : s'.delivered = s.delivered)
    (hpushed : s'.activeSenders.enqueued = s.activeSenders.enqueued)
    (hpopped : s'.activeSenders.returned = s.activeSenders.returned) (hcalls : s'.calls = s.calls)
    (hturn : s'.turnOf p = s.turnOf p) : s'.protocol = s.protocol := by
  have hturns : s'.turnOf = s.turnOf := by
    rw [h.turnOf, hturn, update_eq_self]
  simp only [protocol, hactive, hpending, hlength, henqueued, hreturned, hsent, hdelivered,
    hpushed, hpopped, hcalls, hturns, h.consumer, h.queue none nofun]

variable {mailbox : Producer κ μ} {queue : Producer Unit κ}

lemma Logged.same (h : s.Logged deriveSenderKey)
    (henqueued : s'.mailboxes.enqueued = s.mailboxes.enqueued)
    (hreturned : s'.mailboxes.returned = s.mailboxes.returned) (hsent : s'.sent = s.sent)
    (hdelivered : s'.delivered = s.delivered) : s'.Logged deriveSenderKey where
  sent k := by
    rw [henqueued, hsent]
    exact h.sent k
  delivered k := by
    rw [hreturned, hdelivered]
    exact h.delivered k
  genuine := by
    rw [hdelivered]
    exact h.genuine

variable {m : Memory κ ℕ μ}
variable {phase : EnqueuePhase κ}

lemma Wired.fits (hw : s.Wired deriveSenderKey) (hp : s.producers p = phase) :
    Fits deriveSenderKey phase (s.mailboxes.producers p) (s.activeSenders.producers (some p)) :=
  hp ▸ hw.producer p

lemma wired_setMailboxes (hw : s.Wired deriveSenderKey) (hm : (m.setProducer p mailbox).Sound)
    (hothers : m.producers = s.mailboxes.producers)
    (hdrainers : m.consumers = s.mailboxes.consumers)
    (henqueued : m.enqueued = s.mailboxes.enqueued) (hreturned : m.returned = s.mailboxes.returned)
    (hp : s.producers p = phase)
    (hfits : Fits deriveSenderKey phase mailbox (s.activeSenders.producers (some p)))
    (hturn : turn phase mailbox (s.activeSenders.producers (some p)) =
      turn phase (s.mailboxes.producers p) (s.activeSenders.producers (some p))) :
    Produced deriveSenderKey s (s.setMailboxes (m.setProducer p mailbox)) := by
  have hmoves : MovesOnly p s (s.setMailboxes (m.setProducer p mailbox)) :=
    ⟨fun _ _ => rfl, fun _ hp' => (setProducer_of_ne _ hp' _).trans (congrFun hothers _),
      fun _ _ => rfl, rfl, rfl, hdrainers⟩
  subst hp
  rw [← setProducer_self m p mailbox] at hfits hturn
  exact ⟨hmoves.wired hw hm hw.activeSenders hfits [] (append_nil _).symm
      (hw.logged.same henqueued hreturned rfl rfl),
    .inl (hmoves.silent rfl rfl rfl henqueued hreturned rfl rfl rfl rfl rfl hturn)⟩

/-- A producer that is not in a call takes a context from the pool. -/
lemma Wired.getContext (hw : s.Wired deriveSenderKey) (hp : s.producers p = .idle)
    (hop : UnboundedMailbox.getContext s.mailboxes p = some m) :
    Produced deriveSenderKey s (s.setMailboxes m) := by
  have hsound := hw.mailboxes.acquire hop
  have hfits := hw.fits hp
  obtain ⟨hidle, rfl | ⟨i, v, -, rfl⟩⟩ := acquire_inv hop
  all_goals
    exact wired_setMailboxes hw hsound rfl rfl rfl rfl hp
      ⟨nofun, nofun, nofun, hfits.pushWritten, hfits.pushCleared, hfits.pushSwapped⟩ rfl

variable {msg : μ}

lemma Wired.build (hw : s.Wired deriveSenderKey) (hp : s.producers p = .idle)
    (hop : s.mailboxes.write p msg = some m) :
    Produced deriveSenderKey s (s.setMailboxes m) := by
  have hsound := hw.mailboxes.write hop
  have hfits := hw.fits hp
  obtain ⟨v, hv, rfl⟩ := write_inv hop
  refine wired_setMailboxes hw hsound rfl rfl rfl rfl hp ⟨fun _ hphase => ?_, nofun, nofun,
    hfits.pushWritten, hfits.pushCleared, hfits.pushSwapped⟩ rfl
  rcases hphase with hphase | hphase <;> cases hphase

section
variable (hw : s.Wired deriveSenderKey) (hp : s.producers p = .linking k)
include hw hp

lemma Wired.clearNext (hop : s.mailboxes.clear p = some m) :
    Produced deriveSenderKey s (s.setMailboxes m) := by
  have hsound := hw.mailboxes.clear hop
  have hfits := hw.fits hp
  obtain ⟨v, msg, hv, rfl⟩ := clear_inv hop
  refine wired_setMailboxes hw hsound rfl rfl rfl rfl hp ⟨nofun, fun hm => ?_, nofun,
    hfits.pushWritten, hfits.pushCleared, hfits.pushSwapped⟩ ?_
  · cases hm
    rw [hfits.written hv (.inr rfl)]
  · rw [hv]
    rfl

lemma Wired.swapTail {v : Node κ} (hv : s.mailboxes.producers p = .cleared v msg)
    (hop : s.mailboxes.swap p k = some m) :
    Produced deriveSenderKey s (s.store m msg) := by
  have hsound := hw.mailboxes.swap hop
  have hfits := hw.fits hp
  obtain ⟨v', msg', hv', rfl⟩ := swap_inv hop
  cases hv.symm.trans hv'
  have hk : k = deriveSenderKey msg := by
    injection hfits.cleared hv
  have hmoves : MovesOnly p s (s.store ((s.mailboxes.append k v msg).setProducer p
      (.swapped k (s.mailboxes.tail k) v)) msg) :=
    ⟨fun _ _ => rfl, fun p' hp' => setProducer_of_ne _ hp' _, fun _ _ => rfl, rfl, rfl, rfl⟩
  refine ⟨hmoves.wired hw hsound hw.activeSenders ?_ [] (append_nil _).symm ⟨fun k' => ?_,
    hw.logged.delivered, hw.logged.genuine⟩, .inr ⟨.store p k, ?_, id⟩⟩
  · change Fits deriveSenderKey (s.producers p) (Memory.producers (Memory.setProducer _ p _) p) _
    rw [setProducer_self, hp]
    refine ⟨nofun, nofun, fun hm => ?_, hfits.pushWritten, hfits.pushCleared, hfits.pushSwapped⟩
    cases hm
    rfl
  · change (update s.mailboxes.enqueued k (s.mailboxes.enqueued k ++ [msg]) k').map some =
      ((s.sent ++ [msg]).map some).filter (fromSender deriveSenderKey k')
    rw [map_append, filter_append, ← hw.logged.sent k']
    by_cases hkk : k' = k
    · subst hkk
      simp [fromSender, hk]
    · simp [hkk, fromSender, ← hk, Ne.symm hkk]
  · have hturn : s.turnOf p = .away := by
      rw [turnOf, hp, hv]
      rfl
    change s.protocol.producerStep p (s.turnOf p) (.store p k) = _
    rw [hturn]
    refine congrArg some (Activation.ext rfl rfl rfl ?_ rfl ?_ rfl rfl ?_ rfl rfl)
    · funext k'
      change update (fun k => (s.mailboxes.enqueued k).length) k
        ((s.mailboxes.enqueued k).length + 1) k' =
        (update s.mailboxes.enqueued k (s.mailboxes.enqueued k ++ [msg]) k').length
      by_cases hkk : k' = k
      · subst hkk
        simp
      · simp [hkk]
    · change ((s.sent.length : ℤ) - s.delivered.length + 1 : ℤ) =
        ((s.sent ++ [msg]).length : ℤ) - s.delivered.length
      simp
      omega
    · refine Eq.trans ?_ hmoves.turnOf.symm
      change update s.turnOf p (.stored k) = _
      congr 1
      change _ = turn (s.producers p) (Memory.producers (Memory.setProducer _ p _) p) _
      rw [setProducer_self, hp]
      rfl

lemma Wired.linkNext (hop : s.mailboxes.link p = some m) :
    Produced deriveSenderKey s ((s.setMailboxes m).setProducer p (.counting k)) := by
  have hsound := hw.mailboxes.link hop
  have hfits := hw.fits hp
  obtain ⟨q, a, b, hv, rfl⟩ := link_inv hop
  have hmoves : MovesOnly p s ((s.setMailboxes ((s.mailboxes.setNext a (some b)).setProducer p
      .idle)).setProducer p (.counting k)) :=
    ⟨fun p' hp' => update_of_ne hp' .., fun p' hp' => setProducer_of_ne _ hp' _,
      fun _ _ => rfl, rfl, rfl, rfl⟩
  have hphase : ((s.setMailboxes ((s.mailboxes.setNext a (some b)).setProducer p
      .idle)).setProducer p (.counting k)).producers p = .counting k := update_self ..
  refine ⟨hmoves.wired hw hsound hw.activeSenders ?_ [] (append_nil _).symm
    (hw.logged.same rfl rfl rfl rfl),
    .inl (hmoves.silent rfl rfl rfl rfl rfl rfl rfl rfl rfl rfl ?_)⟩
  · rw [hphase]
    change Fits deriveSenderKey _ (Memory.producers (Memory.setProducer _ p _) p) _
    rw [setProducer_self]
    refine ⟨nofun, nofun, nofun, fun hq => ?_, fun hq => ?_, fun hq => ?_⟩
    · cases hfits.pushWritten hq
    · cases hfits.pushCleared hq
    · obtain ⟨_, hq⟩ := hfits.pushSwapped hq
      cases hq
  · rw [turnOf, hphase, turnOf, hp, hv]
    rfl

end

/-- Only the phase of a producer changes, to one that means the same for the protocol. -/
lemma Wired.setProducer (hw : s.Wired deriveSenderKey)
    (hfits : Fits deriveSenderKey phase (s.mailboxes.producers p)
      (s.activeSenders.producers (some p)))
    (hturn : turn phase (s.mailboxes.producers p) (s.activeSenders.producers (some p)) =
      s.turnOf p) :
    Produced deriveSenderKey s (s.setProducer p phase) := by
  have hphase : (s.setProducer p phase).producers p = phase := update_self ..
  have hmoves : MovesOnly p s (s.setProducer p phase) :=
    ⟨fun _ hp => update_of_ne hp .., fun _ _ => rfl, fun _ _ => rfl, rfl, rfl, rfl⟩
  refine ⟨hmoves.wired hw hw.mailboxes hw.activeSenders ?_ [] (append_nil _).symm
    (hw.logged.same rfl rfl rfl rfl),
    .inl (hmoves.silent rfl rfl rfl rfl rfl rfl rfl rfl rfl rfl ?_)⟩
  · rw [hphase]
    exact hfits
  · rw [turnOf, hphase]
    exact hturn

/-- A step of a call on the counters and flags. -/
lemma Wired.account (hw : s.Wired deriveSenderKey) {old : EnqueuePhase κ}
    (hp : s.producers p = old) (phase : EnqueuePhase κ) (hlinking : ∀ k, old ≠ .linking k)
    (hpushing : ∀ k, old ≠ .pushing k) (hstoring : ∀ k, phase ≠ .storing k)
    (hlinks : ∀ k, phase ≠ .linking k) {active : κ → Bool} {pending : κ → ℤ} {length : ℤ}
    (e : ActivationEvent κ) (hok : ¬s.protocol.Strands e)
    (he : s.protocol.step e = s.protocol.producerStep p (s.turnOf p) e)
    (hstep : s.protocol.producerStep p
        (turn old (s.mailboxes.producers p) (s.activeSenders.producers (some p))) e =
      some ({ s.protocol with active, pending, length }.setProducer p
        (turn phase (s.mailboxes.producers p) (s.activeSenders.producers (some p))))) :
    Produced deriveSenderKey s ({ s with active, pending, length }.setProducer p phase) := by
  have hmoves : MovesOnly p s ({ s with active, pending, length }.setProducer p phase) :=
    ⟨fun _ hp => update_of_ne hp .., fun _ _ => rfl, fun _ _ => rfl, rfl, rfl, rfl⟩
  have hphase : ({ s with active, pending, length }.setProducer p phase).producers p = phase :=
    update_self ..
  rw [turnOf, hp, hstep] at he
  refine ⟨hmoves.wired hw hw.mailboxes hw.activeSenders ?_ [] (append_nil _).symm
    (hw.logged.same rfl rfl rfl rfl), .inr ⟨e, he.trans (congrArg some ?_), hok⟩⟩
  · rw [hphase]
    refine (hw.fits hp).move hlinking hpushing fun v msg k _ hk => ?_
    rcases hk with hk | hk
    · exact absurd hk (hstoring k)
    · exact absurd hk (hlinks k)
  · refine Activation.ext rfl rfl rfl rfl rfl rfl rfl rfl ?_ rfl rfl
    refine Eq.trans ?_ hmoves.turnOf.symm
    rw [turnOf, hphase]
    rfl

section
variable (hw : s.Wired deriveSenderKey)
include hw

/-- `Enqueue` finds the mailbox of the sender, or that there is none. -/
lemma Wired.loadSender (hp : s.producers p = .idle) {v : Node κ}
    (hv : s.mailboxes.producers p = .written v msg)
    (hphase : phase = .linking (deriveSenderKey msg) ∨ phase = .storing (deriveSenderKey msg)) :
    Produced deriveSenderKey s (s.setProducer p phase) := by
  have hfits := hw.fits hp
  refine hw.setProducer (hfits.move nofun nofun fun v' msg' k hm hk => ?_) ?_
  · cases hv.symm.trans hm
    rcases hphase with rfl | rfl <;> rcases hk with hk | hk <;> cases hk <;> rfl
  · rw [turnOf, hp, hv]
    rcases hphase with rfl | rfl <;> rfl

lemma Wired.storeSender (hp : s.producers p = .storing k) :
    Produced deriveSenderKey s ({ s with senders := update s.senders k true }.setProducer p
        (.linking k)) := by
  have hfits := hw.fits hp
  have hnew : Fits deriveSenderKey (.linking k) (s.mailboxes.producers p)
      (s.activeSenders.producers (some p)) := by
    refine hfits.move nofun nofun fun v msg k' hm hk => ?_
    rcases hk with hk | hk
    · cases hk
    · cases hk
      exact hfits.written hm (.inl rfl)
  have hturn : turn (.linking k) (s.mailboxes.producers p) (s.activeSenders.producers (some p)) =
      s.turnOf p := by
    rw [turnOf, hp, turn, hfits.not_isLast nofun]
    rfl
  obtain ⟨hwired, hfollows⟩ := hw.setProducer hnew hturn
  exact ⟨⟨hwired.mailboxes, hwired.activeSenders, hwired.producer, hwired.consumer,
    ⟨hwired.logged.sent, hwired.logged.delivered, hwired.logged.genuine⟩⟩, hfollows⟩

lemma Wired.announce (hp : s.producers p = .announcing k) :
    Produced deriveSenderKey s ((s.setPending k (s.pending k + 1)).setProducer p
        (if s.pending k + 1 = 1 then .activating k else .idle)) := by
  refine hw.account hp _ nofun nofun (fun k' => ?_) (fun k' => ?_) (.announce p) id rfl ?_
  · split_ifs <;> nofun
  · split_ifs <;> nofun
  · change some (((s.protocol).setPending k (s.pending k + 1)).setProducer p
      (if s.pending k + 1 = 1 then .activating k else .away)) = _
    split_ifs <;> rfl

lemma Wired.activate (hp : s.producers p = .activating k) :
    Produced deriveSenderKey s (if s.active k then s.setProducer p .idle
        else (s.setActive k true).setProducer p (.pushing k)) := by
  split_ifs with hactive
  · refine hw.account hp .idle nofun nofun nofun nofun (.activate p) id rfl ?_
    change some (if s.active k then _ else _) = _
    rw [if_pos hactive]
    rfl
  · refine hw.account hp (.pushing k) nofun nofun nofun nofun (.activate p) id rfl ?_
    change some (if s.active k then _ else _) = _
    rw [if_neg hactive, turn, (hw.fits hp).queue_not_isLast nofun]
    rfl

end

/-! A node with the sender goes onto the queue of senders. -/

/-- What one access of the push does: it prepares the node, swaps the tail or links. -/
inductive Pushed (a a' : Memory Unit (Option ℕ) κ) (who : Option ℕ) (k : κ) : Prop where
  | prepared (hold : isLast (a.producers who) = false) (hnew : isLast (a'.producers who) = false)
      (hwritten : ∀ v k', a'.producers who = .written v k' → k' = k)
      (hcleared : ∀ v k', a'.producers who = .cleared v k' → k' = k)
      (henqueued : a'.enqueued = a.enqueued)
  | swapped (hold : isLast (a.producers who) = false) (hnew : isLast (a'.producers who) = true)
      (henqueued : a'.enqueued () = a.enqueued () ++ [k])
  | linked (hold : isLast (a.producers who) = true) (hnew : a'.producers who = .idle)
      (henqueued : a'.enqueued = a.enqueued)

/-- What a push leaves alone. -/
structure PushesOnly (a a' : Memory Unit (Option ℕ) κ) (who : Option ℕ) : Prop where
  sound : a'.Sound
  others : ∀ who', who' ≠ who → a'.producers who' = a.producers who'
  consumers : a'.consumers = a.consumers
  returned : a'.returned = a.returned

variable {place : Option ℕ}

section
omit [DecidableEq κ]

lemma push_spec {a a' : Memory Unit (Option ℕ) κ} {who : Option ℕ}
    (hsound : a.Sound) (hwritten : ∀ v k', a.producers who = .written v k' → k' = k)
    (hcleared : ∀ v k', a.producers who = .cleared v k' → k' = k)
    (hop : push a who k place = some a') : PushesOnly a a' who ∧ Pushed a a' who k := by
  unfold push at hop
  split at hop
  next hwho =>
    have hs := hsound.acquire hop
    obtain ⟨-, rfl | ⟨i, v, -, rfl⟩⟩ := acquire_inv hop
    all_goals
      refine ⟨⟨hs, fun _ h => setProducer_of_ne _ h _, rfl, rfl⟩, .prepared ?_ ?_ ?_ ?_ rfl⟩
      · rw [hwho]
        rfl
      · rw [setProducer_self]
        rfl
      · simp
      · simp
  next hwho =>
    have hs := hsound.write hop
    obtain ⟨v, -, rfl⟩ := write_inv hop
    refine ⟨⟨hs, fun _ h => setProducer_of_ne _ h _, rfl, rfl⟩, .prepared ?_ ?_ ?_ ?_ rfl⟩
    · rw [hwho]
      rfl
    · rw [setProducer_self]
      rfl
    · intro v' k' h
      rw [setProducer_self] at h
      cases h
      rfl
    · simp
  next v₀ k₀ hwho =>
    have hs := hsound.clear hop
    obtain ⟨v, k', hwho', rfl⟩ := clear_inv hop
    refine ⟨⟨hs, fun _ h => setProducer_of_ne _ h _, rfl, rfl⟩, .prepared ?_ ?_ ?_ ?_ rfl⟩
    · rw [hwho]
      rfl
    · rw [setProducer_self]
      rfl
    · simp
    · intro v' k'' h
      rw [setProducer_self] at h
      cases h
      exact hwritten v k' hwho'
  next v₀ k₀ hwho =>
    have hs := hsound.swap hop
    obtain ⟨v, k', hwho', rfl⟩ := swap_inv hop
    refine ⟨⟨hs, fun _ h => setProducer_of_ne _ h _, rfl, rfl⟩, .swapped ?_ ?_ ?_⟩
    · rw [hwho]
      rfl
    · rw [setProducer_self]
      rfl
    · rw [hcleared v k' hwho']
      change update a.enqueued () (a.enqueued () ++ [k]) () = _
      rw [update_self]
  next hwho =>
    have hs := hsound.link hop
    obtain ⟨q, pred, v, -, rfl⟩ := link_inv hop
    refine ⟨⟨hs, fun _ h => setProducer_of_ne _ h _, rfl, rfl⟩, .linked ?_ ?_ rfl⟩
    · rw [hwho]
      rfl
    · rw [setProducer_self]

lemma PushesOnly.waiting {a a' : Memory Unit (Option ℕ) κ} {who : Option ℕ}
    (h : PushesOnly a a' who) (hsound : a.Sound) {l : List κ}
    (henqueued : a'.enqueued () = a.enqueued () ++ l) : a'.waiting () = a.waiting () ++ l := by
  have hle : (a.returned ()).length ≤ (a.enqueued ()).length := by
    simpa using (hsound.returned_isPrefix ()).length_le
  rw [Memory.waiting, h.returned, henqueued, drop_append_of_le_length hle, Memory.waiting]

/-- A call that pushes a sender has no business with its mailbox. -/
lemma Fits.pushing {queue queue' : Producer Unit κ}
    (h : Fits deriveSenderKey (.pushing k) mailbox queue)
    (hwritten : ∀ v k', queue' = .written v k' → k' = k)
    (hcleared : ∀ v k', queue' = .cleared v k' → k' = k) :
    Fits deriveSenderKey (.pushing k) mailbox queue' where
  written _ hk := by rcases hk with hk | hk <;> cases hk
  cleared hm := h.cleared hm
  swapped hm := h.swapped hm
  pushWritten hq := by rw [hwritten _ _ hq]
  pushCleared hq := by rw [hcleared _ _ hq]
  pushSwapped _ := ⟨k, rfl⟩

end

lemma Wired.push (hw : s.Wired deriveSenderKey) (hp : s.producers p = .pushing k)
    {a : Memory Unit (Option ℕ) κ} (hop : push s.activeSenders (some p) k place = some a) :
    Produced deriveSenderKey s ((s.setActiveSenders a).setProducer p
        (if isLast (s.activeSenders.producers (some p)) then .idle else .pushing k)) := by
  have hfits := hw.fits hp
  have hkey : ∀ {k'}, EnqueuePhase.pushing k = .pushing k' → k' = k := by
    rintro k' ⟨⟩
    rfl
  obtain ⟨honly, hpushed⟩ := push_spec hw.activeSenders
    (fun v k' h => hkey (hfits.pushWritten h)) (fun v k' h => hkey (hfits.pushCleared h)) hop
  generalize hphase : (if isLast (s.activeSenders.producers (some p)) then EnqueuePhase.idle
    else .pushing k) = phase
  have hmoves : MovesOnly p s ((s.setActiveSenders a).setProducer p phase) :=
    ⟨fun _ h => update_of_ne h .., fun _ _ => rfl, honly.others, rfl, honly.consumers, rfl⟩
  have hself : ((s.setActiveSenders a).setProducer p phase).producers p = phase := update_self ..
  have hturn : s.turnOf p =
      if isLast (s.activeSenders.producers (some p)) then .away else .pushing k := by
    rw [turnOf, hp]
    rfl
  have hturn' : ((s.setActiveSenders a).setProducer p phase).turnOf p =
      turn phase (s.mailboxes.producers p) (a.producers (some p)) := by
    rw [turnOf, hself]
    rfl
  cases hpushed with rw [hold] at hphase hturn
  | prepared hold hnew hwritten hcleared henqueued =>
    subst hphase
    refine ⟨hmoves.wired hw hw.mailboxes honly.sound ?_ [] ?_ (hw.logged.same rfl rfl rfl rfl),
      .inl (hmoves.silent rfl rfl rfl rfl rfl rfl rfl henqueued honly.returned rfl ?_)⟩
    · rw [hself]
      exact hfits.pushing hwritten hcleared
    · exact honly.waiting hw.activeSenders (by rw [henqueued, append_nil])
    · rw [hturn', hturn]
      change turn (.pushing k) _ _ = _
      rw [turn, hnew]
  | swapped hold hnew henqueued =>
    subst hphase
    obtain ⟨q, x, y, hq⟩ := (isLast_iff _).mp hnew
    refine ⟨hmoves.wired hw hw.mailboxes honly.sound ?_ [k] ?_ (hw.logged.same rfl rfl rfl rfl),
      .inr ⟨.push p, ?_, id⟩⟩
    · rw [hself]
      refine hfits.pushing (fun v k' h => ?_) (fun v k' h => ?_)
      · cases hq.symm.trans h
      · cases hq.symm.trans h
    · exact honly.waiting hw.activeSenders henqueued
    · change s.protocol.producerStep p (s.turnOf p) (.push p) = _
      rw [hturn]
      refine congrArg some (Activation.ext rfl rfl rfl rfl rfl rfl ?_ ?_ ?_ ?_ ?_)
      · exact henqueued.symm
      · exact congrArg (fun r => (r ()).length) honly.returned.symm
      · refine Eq.trans ?_ hmoves.turnOf.symm
        rw [hturn']
        change update s.turnOf p .away = update s.turnOf p (turn (.pushing k) _ _)
        rw [turn, hnew]
        rfl
      · exact congrArg (consumerTurn s.consumer) (honly.others none nofun).symm
      · exact congrArg (s.calls + ending s.consumer ·) (honly.others none nofun).symm
  | linked hold hnew henqueued =>
    subst hphase
    refine ⟨hmoves.wired hw hw.mailboxes honly.sound ?_ [] ?_ (hw.logged.same rfl rfl rfl rfl),
      .inl (hmoves.silent rfl rfl rfl rfl rfl rfl rfl henqueued honly.returned rfl ?_)⟩
    · rw [hself]
      change Fits _ _ _ (a.producers (some p))
      rw [hnew]
      refine ⟨fun _ hk => ?_, fun hm => ?_, fun hm => ?_, nofun, nofun, nofun⟩
      · rcases hk with hk | hk <;> cases hk
      · cases hfits.cleared hm
      · cases hfits.swapped hm
    · exact honly.waiting hw.activeSenders (by rw [henqueued, append_nil])
    · rw [hturn', hturn]
      rfl

lemma Wired.enqueue (hw : s.Wired deriveSenderKey)
    (hstep : s.enqueue deriveSenderKey p place = some s') :
    Produced deriveSenderKey s s' := by
  unfold UnboundedFairMailbox.enqueue at hstep
  split at hstep <;> try cases hstep
  next hp =>
    split at hstep <;> cases hstep
    next v msg hv =>
      refine hw.loadSender hp hv ?_
      split_ifs
      · exact .inl rfl
      · exact .inr rfl
  next k hp => exact hw.storeSender hp
  next k hp =>
    split at hstep
    next hv =>
      obtain ⟨m, hop, rfl⟩ := Option.map_eq_some_iff.mp hstep
      exact hw.clearNext hp hop
    next v msg hv =>
      obtain ⟨m, hop, rfl⟩ := Option.map_eq_some_iff.mp hstep
      exact hw.swapTail hp hv hop
    next hv =>
      obtain ⟨m, hop, rfl⟩ := Option.map_eq_some_iff.mp hstep
      exact hw.linkNext hp hop
    · cases hstep
  next k hp =>
    exact hw.account hp (.announcing k) nofun nofun nofun nofun (.count p) id rfl rfl
  next k hp => exact hw.announce hp
  next k hp => exact hw.activate hp
  next k hp =>
    obtain ⟨a, hop, rfl⟩ := Option.map_eq_some_iff.mp hstep
    exact hw.push hp hop

end Producers
end GoAkt.Actor.UnboundedFairMailbox
