import GoAkt.FairMailboxProtocol

/-!
# `Dequeue` of the fair mailbox follows the protocol

Every access of a `Dequeue` call is a step of the consumer of the protocol or changes nothing
in it. The call finds no sender, or no message of its sender, only if there is none or some
`Enqueue` call is in progress.
-/
namespace GoAkt.Actor.UnboundedFairMailbox
open GoAkt.Interleavings GoAkt.LinkedQueues Function List Memory Option
variable {κ μ : Type} [DecidableEq κ] {deriveSenderKey : μ → κ}
  {s s' : UnboundedFairMailbox κ μ} {k : κ}

/-- The next access of `Dequeue` loses a sender. Its mailbox looked empty and it is going to be
marked inactive although a message of it is announced, by an `Enqueue` call that does not
activate it. Or its counter was found negative and is going to be set to 0 although messages
were announced since. -/
def LosesSender (s : UnboundedFairMailbox κ μ) : Prop :=
  ∃ k, 0 < s.pending k ∧
    (s.consumer = .deactivating k ∧ (∀ p, s.producers p ≠ .activating k) ∨
      s.consumer = .resetting k)

/-- A step of the mailbox that no producer notices is one of the consumer of the protocol, or
none. -/
structure Serves (s s' : UnboundedFairMailbox κ μ) : Prop where
  producers : s'.producers = s.producers
  sent : s'.sent = s.sent
  follows : s'.protocol = s.protocol ∨
    ∃ e, s.protocol.consumerStep s.protocol.consumer e = some s'.protocol ∧
      (s.protocol.Strands e → s.LosesSender) ∧ ((∀ p, s.producers p = .idle) → s.protocol.Alone e)

/-- What every step of `Dequeue` is to do. -/
abbrev Dequeued (deriveSenderKey : μ → κ) (s s' : UnboundedFairMailbox κ μ) : Prop :=
  s'.Wired deriveSenderKey ∧ Serves s s'

/-- What a step of `Dequeue` leaves alone. -/
structure KeepsProducers (s s' : UnboundedFairMailbox κ μ) : Prop where
  phase : s'.producers = s.producers
  mailbox : s'.mailboxes.producers = s.mailboxes.producers
  queue : ∀ p, s'.activeSenders.producers (some p) = s.activeSenders.producers (some p)
  stored : s'.mailboxes.enqueued = s.mailboxes.enqueued
  sent : s'.sent = s.sent

open KeepsProducers

omit [DecidableEq κ] in
lemma KeepsProducers.turnOf (h : KeepsProducers s s') : s'.turnOf = s.turnOf := by
  funext p
  rw [UnboundedFairMailbox.turnOf, h.phase, h.mailbox, h.queue]
  rfl

lemma KeepsProducers.wired (h : KeepsProducers s s') (hw : s.Wired deriveSenderKey)
    (hmailboxes : s'.mailboxes.Sound) (hsenders : s'.activeSenders.Sound)
    (hcaller : CallerFits s'.consumer (s'.activeSenders.producers none)
      (s'.activeSenders.consumers ()) (s'.activeSenders.waiting ()) s'.mailboxes.consumers)
    (hdelivered : ∀ k, s'.mailboxes.returned k =
      s'.delivered.filter (fromSender deriveSenderKey k)) (hgenuine : none ∉ s'.delivered) :
    s'.Wired deriveSenderKey where
  mailboxes := hmailboxes
  activeSenders := hsenders
  producer p := by
    rw [h.phase, h.mailbox, h.queue]
    exact hw.producer p
  consumer := hcaller
  logged := by
    refine ⟨fun k => ?_, hdelivered, hgenuine⟩
    rw [h.stored, h.sent]
    exact hw.logged.sent k

variable {phase : DequeuePhase κ}

section
omit [DecidableEq κ]

variable {phase' : DequeuePhase κ} {queue : Producer Unit κ} {popper popper' : Consumer Unit}
  {waiting waiting' : List κ} {drainers drainers' : κ → Consumer κ}

section
variable (h : CallerFits phase queue popper waiting drainers) (hpush : ∀ k, phase ≠ .pushing k)
include h hpush

lemma CallerFits.isLast_eq : isLast queue = false := by
  by_contra hlast
  obtain ⟨q, a, b, hq⟩ := (isLast_iff queue).mp (by simpa using hlast)
  obtain ⟨k, hk⟩ := h.pushSwapped hq
  exact hpush k hk

/-- A call that pushes no sender leaves the mailboxes. -/
lemma CallerFits.leave (hidle : ∀ k, drainers' k = .idle) (hpop : PopFits phase' popper' waiting') :
    CallerFits phase' queue popper' waiting' drainers' where
  pushWritten hq := absurd (h.pushWritten hq) (hpush _)
  pushCleared hq := absurd (h.pushCleared hq) (hpush _)
  pushSwapped hq := by
    obtain ⟨k, hk⟩ := h.pushSwapped hq
    exact absurd hk (hpush k)
  popping := hpop
  draining hk := absurd (hidle _) hk

/-- A call that pushes no sender and does not drain a mailbox moves on. -/
lemma CallerFits.move (hdrain : ∀ k, phase ≠ .draining k) (hpop : PopFits phase' popper' waiting') :
    CallerFits phase' queue popper' waiting' drainers :=
  h.leave hpush (fun k => by_contra fun hne => hdrain k (h.draining hne)) hpop

end

lemma ending_eq_zero (hpush : ∀ k, phase ≠ .pushing k)
    (queue : Producer Unit κ) : ending phase queue = 0 := by
  cases phase with
  | pushing k => exact absurd rfl (hpush k)
  | _ => rfl

lemma protocol_consumer (hc : s.consumer = phase) :
    s.protocol.consumer = consumerTurn phase (s.activeSenders.producers none) := by
  rw [← hc]
  rfl

end

/-! ## Flags and counters -/

section
variable (hw : s.Wired deriveSenderKey)
include hw

/-- A step that only writes a flag, a counter or the length. -/
lemma Wired.serve (hc : s.consumer = phase) (phase' : DequeuePhase κ)
    (hpush : ∀ k, phase ≠ .pushing k) (hdrain : ∀ k, phase ≠ .draining k)
    (hpop : ∀ popper waiting, PopFits phase popper waiting → PopFits phase' popper waiting)
    {active : κ → Bool} {pending : κ → ℤ} {length : ℤ} (finished : ℕ) (e : ActivationEvent κ)
    (hstep : s.protocol.consumerStep
      (consumerTurn phase (s.activeSenders.producers none)) e = some { s.protocol with
        active
        pending
        length
        consumer := consumerTurn phase' (s.activeSenders.producers none)
        calls := s.protocol.calls + finished })
    (hending : ending phase' (s.activeSenders.producers none) = 0)
    (hstrands : s.protocol.Strands e → s.LosesSender) (halone : s.protocol.Alone e) :
    Dequeued deriveSenderKey s { s with
        active
        pending
        length
        consumer := phase'
        calls := s.calls + finished } := by
  have hfits := hw.consumer
  rw [hc] at hfits
  refine ⟨wired (s := s) ⟨rfl, rfl, fun _ => rfl, rfl, rfl⟩ hw hw.mailboxes
    hw.activeSenders (hfits.move hpush hdrain (hpop _ _ hfits.popping)) hw.logged.delivered
    hw.logged.genuine, rfl, rfl, .inr ⟨e, ?_, hstrands, fun _ => halone⟩⟩
  change s.protocol.consumerStep (consumerTurn s.consumer _) e = _
  rw [hc, hstep]
  refine congrArg some (Activation.ext rfl rfl rfl rfl rfl rfl rfl rfl rfl rfl ?_)
  change s.calls + ending s.consumer _ + finished = s.calls + finished + ending phase' _
  rw [hc, ending_eq_zero hpush, hending]
  rfl

lemma Wired.deactivate (hc : s.consumer = .deactivating k) :
    Dequeued deriveSenderKey s (s.setActive k false).finishCall := by
  refine hw.serve hc .idle nofun nofun (fun _ _ => id) 1 .deactivate rfl rfl ?_ trivial
  rintro ⟨k', hk', hpos, hp⟩
  cases (protocol_consumer hc).symm.trans hk'
  refine ⟨k, hpos, .inl ⟨hc, fun p hactivating => hp p ?_⟩⟩
  change turn (s.producers p) _ _ = _
  rw [hactivating]
  rfl

lemma Wired.settle (hc : s.consumer = .settling k) :
    Dequeued deriveSenderKey s ((s.setPending k (s.pending k - 1)).setConsumer
        (if 0 < s.pending k - 1 then .pushing k
          else if s.pending k - 1 < 0 then .resetting k else .finishing k)) := by
  have hlast : isLast (s.activeSenders.producers none) = false :=
    hw.consumer.isLast_eq (by simp [hc])
  have hstep : s.protocol.consumerStep (.discounted k) .settle =
      some ((s.protocol.setPending k (s.pending k - 1)).setConsumer
        (if 0 < s.pending k - 1 then .pushing k
          else if s.pending k - 1 < 0 then .resetting k else .finishing k)) := rfl
  split_ifs at hstep ⊢ with hpos hneg
  · refine hw.serve hc (.pushing k) nofun nofun (fun _ _ => id) 0 .settle ?_ ?_ False.elim trivial
    · refine hstep.trans ?_
      rw [consumerTurn, hlast]
      rfl
    · rw [ending, hlast]
      rfl
  · exact hw.serve hc (.resetting k) nofun nofun (fun _ _ => id) 0 .settle hstep rfl False.elim
      trivial
  · exact hw.serve hc (.finishing k) nofun nofun (fun _ _ => id) 0 .settle hstep rfl False.elim
      trivial

lemma Wired.reset (hc : s.consumer = .resetting k) :
    Dequeued deriveSenderKey s ((s.setPending k 0).setConsumer (.finishing k)) := by
  refine hw.serve hc (.finishing k) nofun nofun (fun _ _ => id) 0 .reset rfl rfl ?_ trivial
  rintro ⟨k', hk', hpos⟩
  cases (protocol_consumer hc).symm.trans hk'
  exact ⟨k, hpos, .inr hc⟩

lemma Wired.recheck (hc : s.consumer = .rechecking k) : Dequeued deriveSenderKey s
      (if 0 < s.pending k then s.setConsumer (.reactivating k) else s.finishCall) := by
  have hstep : s.protocol.consumerStep (.rechecking k) .recheck =
      some (if 0 < s.pending k then s.protocol.setConsumer (.reactivating k)
        else s.protocol.finishCall) := rfl
  split_ifs at hstep ⊢ with hpos
  · exact hw.serve hc (.reactivating k) nofun nofun (fun _ _ => id) 0 .recheck hstep rfl False.elim
      trivial
  · exact hw.serve hc .idle nofun nofun (fun _ _ => id) 1 .recheck hstep rfl False.elim trivial

lemma Wired.reactivate (hc : s.consumer = .reactivating k) :
    Dequeued deriveSenderKey s (if s.active k then s.finishCall
        else (s.setActive k true).setConsumer (.pushing k)) := by
  have hlast : isLast (s.activeSenders.producers none) = false :=
    hw.consumer.isLast_eq (by simp [hc])
  have hstep : s.protocol.consumerStep (.reactivating k) .reactivate =
      some (if s.active k then s.protocol.finishCall
        else (s.protocol.setActive k true).setConsumer (.pushing k)) := rfl
  split_ifs at hstep ⊢ with hactive
  · exact hw.serve hc .idle nofun nofun (fun _ _ => id) 1 .reactivate hstep rfl False.elim trivial
  · refine hw.serve hc (.pushing k) nofun nofun (fun _ _ => id) 0 .reactivate ?_ ?_ False.elim
      trivial
    · refine hstep.trans ?_
      rw [consumerTurn, hlast]
      rfl
    · rw [ending, hlast]
      rfl

end

/-! ## The queue of senders -/

variable {a : Memory Unit (Option ℕ) κ}

/-- A step that neither pushes nor returns a sender. -/
lemma Wired.walk (hw : s.Wired deriveSenderKey) {old : DequeuePhase κ} (hc : s.consumer = old)
    (ha : a.Sound) (hproducers : a.producers = s.activeSenders.producers)
    (henqueued : a.enqueued = s.activeSenders.enqueued)
    (hreturned : a.returned = s.activeSenders.returned) (phase : DequeuePhase κ)
    (hpush : ∀ k, old ≠ .pushing k) (hpush' : ∀ k, phase ≠ .pushing k)
    (hdrain : ∀ k, old ≠ .draining k)
    (hpop : PopFits phase (a.consumers ()) (s.activeSenders.waiting ()))
    (hturn : ∀ queue, consumerTurn old queue = consumerTurn phase queue) :
    Dequeued deriveSenderKey s ((s.setActiveSenders a).setConsumer phase) := by
  subst hc
  have hwaiting : a.waiting () = s.activeSenders.waiting () := by
    rw [Memory.waiting, Memory.waiting, henqueued, hreturned]
  refine ⟨wired (s := s) ⟨rfl, rfl, fun _ => congrFun hproducers _, rfl, rfl⟩ hw
    hw.mailboxes ha ?_ hw.logged.delivered hw.logged.genuine, rfl, rfl, .inl ?_⟩
  · change CallerFits phase (a.producers none) (a.consumers ()) (a.waiting ()) _
    rw [hproducers, hwaiting]
    exact hw.consumer.move hpush hdrain hpop
  · refine Activation.ext rfl rfl rfl rfl rfl rfl ?_ ?_ ?_ ?_ ?_
    · exact congrFun henqueued ()
    · exact congrArg (fun r => (r ()).length) hreturned
    · exact KeepsProducers.turnOf (s := s) ⟨rfl, rfl, fun _ => congrFun hproducers _, rfl, rfl⟩
    · change consumerTurn phase (a.producers none) = consumerTurn s.consumer _
      rw [hproducers, hturn]
    · change s.calls + ending phase _ = s.calls + ending s.consumer _
      rw [ending_eq_zero hpush', ending_eq_zero hpush]

/-- With nobody between the swap and the link, the list of senders has no gaps. -/
lemma Wired.no_gap (hw : s.Wired deriveSenderKey) (hc : ∀ k, s.consumer ≠ .pushing k)
    (hidle : ∀ p, s.producers p = .idle) (who : Option ℕ) (x y : Node Unit) :
    s.activeSenders.producers who ≠ .swapped () x y := by
  intro hwho
  cases who with
  | none =>
    obtain ⟨k, hk⟩ := hw.consumer.pushSwapped hwho
    exact hc k hk
  | some p =>
    obtain ⟨k, hk⟩ := (hw.producer p).pushSwapped hwho
    cases (hidle p).symm.trans hk

/-- The call finds no sender. -/
lemma Wired.findNothing (hw : s.Wired deriveSenderKey) (hc : s.consumer = .popping)
    {head : Node Unit} (hhead : s.activeSenders.consumers () = .loaded head)
    (hnext : s.activeSenders.next head = none) (hop : s.activeSenders.loadNext () = some a) :
    Dequeued deriveSenderKey s (s.setActiveSenders a).finishCall := by
  have ha := hw.activeSenders.loadNext hop
  have heq := hw.activeSenders.linked.loaded hhead
  subst heq
  obtain ⟨head', hhead', rfl⟩ := loadNext_inv hop
  cases hhead.symm.trans hhead'
  have hfits := hw.consumer
  rw [hc] at hfits
  refine ⟨wired (s := s) ⟨rfl, rfl, fun _ => rfl, rfl, rfl⟩ hw hw.mailboxes ha
    (hfits.move nofun nofun ?_) hw.logged.delivered hw.logged.genuine,
    rfl, rfl, .inr ⟨.nothing, ?_, False.elim, fun hidle => ?_⟩⟩
  · change update s.activeSenders.consumers () _ () = .idle
    rw [update_self, hnext]
    rfl
  · change s.protocol.consumerStep (consumerTurn s.consumer _) .nothing = _
    rw [hc]
    refine congrArg some (Activation.ext rfl rfl rfl rfl rfl rfl rfl rfl rfl rfl ?_)
    change s.calls + ending s.consumer _ + 1 = s.calls + 1
    rw [hc]
    rfl
  · have hgap := hw.no_gap (hc ▸ nofun) hidle
    have hall := hw.activeSenders.returned_eq hgap (by rw [hhead]; rfl) hnext
    change (s.activeSenders.enqueued ()).drop (s.activeSenders.returned ()).length = []
    rw [hall, length_map, drop_length]

/-- `activeSenders.dequeue` up to the load of the value. -/
lemma Wired.pop (hw : s.Wired deriveSenderKey) (hc : s.consumer = .popping)
    (hstep : s.pop = some s') : Dequeued deriveSenderKey s s' := by
  have hsame : ∀ a, (s.setActiveSenders a).setConsumer .popping = s.setActiveSenders a := by
    intro a
    rw [← hc]
    rfl
  unfold UnboundedFairMailbox.pop at hstep
  split at hstep <;> try cases hstep
  next head hhead =>
    obtain ⟨a, hop, rfl⟩ := map_eq_some_iff.mp hstep
    split_ifs with hnext
    · exact hw.findNothing hc hhead (by simpa using hnext) hop
    · have ha := hw.activeSenders.loadNext hop
      obtain ⟨head', hhead', rfl⟩ := loadNext_inv hop
      cases hhead.symm.trans hhead'
      obtain ⟨n, hn⟩ := ne_none_iff_exists'.mp (by simpa using hnext)
      rw [← hsame]
      refine hw.walk hc ha rfl rfl rfl .popping nofun nofun nofun ?_ fun _ => rfl
      change Memory.consumers (Memory.setConsumer _ _ _) () ≠ .idle
      rw [setConsumer_self, hn]
      simp
  next head next hhead =>
    obtain ⟨a, hop, rfl⟩ := map_eq_some_iff.mp hstep
    have ha := hw.activeSenders.storeHead hop
    obtain ⟨head', next', -, rfl⟩ := storeHead_inv hop
    rw [← hsame]
    refine hw.walk hc ha rfl rfl rfl .popping nofun nofun nofun ?_ fun _ => rfl
    change Memory.consumers (Memory.setConsumer _ _ _) () ≠ .idle
    rw [setConsumer_self]
    simp
  next old next x y hhead =>
    obtain ⟨k, rest, hvalue, hwaiting⟩ := hw.activeSenders.waiting_of_retiring hhead
    refine hw.walk hc hw.activeSenders rfl rfl rfl (.popped _) nofun nofun nofun
      ⟨⟨old, next, x, y, hhead⟩, k, rest, hvalue, hwaiting⟩ fun _ => rfl

variable {keep : Bool}

/-- The sender leaves the queue and belongs to the call. -/
lemma Wired.release (hw : s.Wired deriveSenderKey) (hc : s.consumer = .popped (some k))
    {rest : List κ} (hwaiting : s.activeSenders.waiting () = k :: rest)
    (hop : s.activeSenders.release () keep = some a) :
    Dequeued deriveSenderKey s ((s.setActiveSenders a).setConsumer (.draining k)) := by
  have ha := hw.activeSenders.release hop
  obtain ⟨old, next, -, rfl⟩ := release_inv hop
  have hfits := hw.consumer
  rw [hc] at hfits
  refine ⟨wired (s := s) ⟨rfl, rfl, fun _ => rfl, rfl, rfl⟩ hw hw.mailboxes ha
    (hfits.move nofun nofun ?_) hw.logged.delivered hw.logged.genuine,
    rfl, rfl, .inr ⟨.pop, ?_, False.elim, fun _ => trivial⟩⟩
  · exact setConsumer_self ..
  · have hget : (s.activeSenders.enqueued ())[(s.activeSenders.returned ()).length]? = some k := by
      rw [← List.head?_drop]
      exact congrArg List.head? hwaiting
    change s.protocol.consumerStep (consumerTurn s.consumer _) .pop = _
    rw [hc]
    change Option.map _ (s.activeSenders.enqueued ())[(s.activeSenders.returned ()).length]? = _
    rw [hget]
    refine congrArg some (Activation.ext rfl rfl rfl rfl rfl rfl rfl ?_ rfl rfl ?_)
    · change (s.activeSenders.returned ()).length + 1 = (update s.activeSenders.returned ()
        (s.activeSenders.returned () ++ [s.activeSenders.value next]) ()).length
      rw [update_self, length_append, length_singleton]
    · change s.calls + ending s.consumer _ = s.calls
      rw [hc]
      rfl

/-- The rest of `activeSenders.dequeue`. -/
lemma Wired.retire (hw : s.Wired deriveSenderKey) {sender : Option κ}
    (hc : s.consumer = .popped sender) (hstep : s.retire sender keep = some s') :
    Dequeued deriveSenderKey s s' := by
  have hsame : ∀ a, (s.setActiveSenders a).setConsumer (.popped sender) = s.setActiveSenders a := by
    intro a
    rw [← hc]
    rfl
  have hfits := hw.consumer.popping
  rw [hc] at hfits
  obtain ⟨-, k, rest, rfl, hwaiting⟩ := hfits
  unfold UnboundedFairMailbox.retire at hstep
  split at hstep <;> try cases hstep
  all_goals obtain ⟨a, hop, rfl⟩ := map_eq_some_iff.mp hstep
  next old next x hhead =>
    have ha := hw.activeSenders.eraseNext hop
    obtain ⟨old', next', x', y', -, rfl⟩ := eraseNext_inv hop
    rw [← hsame]
    exact hw.walk hc ha rfl rfl rfl (.popped (some k)) nofun nofun nofun
      ⟨⟨old', next', x', true, setConsumer_self ..⟩, k, rest, rfl, hwaiting⟩ fun _ => rfl
  next old next hhead =>
    have ha := hw.activeSenders.eraseValue hop
    obtain ⟨old', next', x', y', -, rfl⟩ := eraseValue_inv hop
    rw [← hsame]
    exact hw.walk hc ha rfl rfl rfl (.popped (some k)) nofun nofun nofun
      ⟨⟨old', next', true, y', setConsumer_self ..⟩, k, rest, rfl, hwaiting⟩ fun _ => rfl
  next old next hhead => exact hw.release hc hwaiting hop

/-! ## The mailbox of the sender -/

variable {m : Memory κ ℕ μ}

/-- A step on the mailbox that returns nothing. -/
lemma Wired.look (hw : s.Wired deriveSenderKey) (hc : s.consumer = .draining k)
    {turn : Consumer κ} (hm : (m.setConsumer k turn).Sound)
    (hproducers : m.producers = s.mailboxes.producers)
    (henqueued : m.enqueued = s.mailboxes.enqueued) (hreturned : m.returned = s.mailboxes.returned)
    (hconsumers : m.consumers = s.mailboxes.consumers) :
    Dequeued deriveSenderKey s (s.setMailboxes (m.setConsumer k turn)) := by
  have hfits := hw.consumer
  have hkeeps : KeepsProducers s (s.setMailboxes (m.setConsumer k turn)) :=
    ⟨rfl, hproducers, fun _ => rfl, henqueued, rfl⟩
  refine ⟨hkeeps.wired hw hm hw.activeSenders ⟨hfits.pushWritten, hfits.pushCleared,
    hfits.pushSwapped, hfits.popping, fun {k'} hk' => ?_⟩ (fun k' => ?_) hw.logged.genuine,
    rfl, rfl, .inl ?_⟩
  · by_cases hkk : k' = k
    · subst hkk
      exact hc
    · rw [show (s.setMailboxes (m.setConsumer k turn)).mailboxes = m.setConsumer k turn from rfl,
        setConsumer_of_ne m hkk, hconsumers] at hk'
      exact hfits.draining hk'
  · exact (congrFun hreturned k').trans (hw.logged.delivered k')
  · refine Activation.ext rfl rfl rfl ?_ ?_ rfl rfl rfl hkeeps.turnOf rfl rfl
    · exact congrArg (fun r k => (r k).length) henqueued
    · exact congrArg (fun r k => (r k).length) hreturned

/-- A call that leaves the mailbox of its sender leaves all of them. -/
lemma CallerFits.drained {queue : Producer Unit κ} {popper : Consumer Unit} {waiting : List κ}
    {drainers : κ → Consumer κ} (h : CallerFits (.draining k) queue popper waiting drainers)
    {turn : Consumer κ} (hturn : turn = .idle) (k' : κ) : update drainers k turn k' = .idle := by
  subst hturn
  by_cases hkk : k' = k
  · rw [hkk, update_self]
  · rw [update_of_ne hkk]
    by_contra hne
    cases h.draining hne
    exact hkk rfl

section
variable (hw : s.Wired deriveSenderKey)
include hw

section
variable (hc : s.consumer = .draining k)
include hc

/-- The mailbox looks empty. -/
lemma Wired.miss {head : Node κ} (hhead : s.mailboxes.consumers k = .loaded head)
    (hnext : s.mailboxes.next head = none) (hop : s.mailboxes.loadNext k = some m) :
    Dequeued deriveSenderKey s ((s.setMailboxes m).setConsumer (.deactivating k)) := by
  have hm := hw.mailboxes.loadNext hop
  have heq := hw.mailboxes.linked.loaded hhead
  subst heq
  obtain ⟨head', hhead', rfl⟩ := loadNext_inv hop
  cases hhead.symm.trans hhead'
  have hfits := hw.consumer
  rw [hc] at hfits
  refine ⟨wired (s := s) ⟨rfl, rfl, fun _ => rfl, rfl, rfl⟩ hw hm hw.activeSenders
    (hfits.leave nofun (hfits.drained (by rw [hnext]; rfl)) hfits.popping)
    hw.logged.delivered hw.logged.genuine,
    rfl, rfl, .inr ⟨.miss, ?_, False.elim, fun hproducers k' hk' => ?_⟩⟩
  · change s.protocol.consumerStep (consumerTurn s.consumer _) .miss = _
    rw [hc]
    refine congrArg some (Activation.ext rfl rfl rfl rfl rfl rfl rfl rfl rfl rfl ?_)
    change s.calls + ending s.consumer _ = s.calls
    rw [hc]
    rfl
  · cases (protocol_consumer hc).symm.trans hk'
    have hgap : ∀ p x y, s.mailboxes.producers p ≠ .swapped k x y := by
      intro p x y hp
      cases (hproducers p).symm.trans ((hw.producer p).swapped hp)
    have hall := hw.mailboxes.returned_eq hgap (by rw [hhead]; rfl) hnext
    change (s.mailboxes.returned k).length = (s.mailboxes.enqueued k).length
    rw [hall, length_map]

/-- The mailbox returns a message, which is one of its sender. -/
lemma Wired.take {old next : Node κ}
    (hhead : s.mailboxes.consumers k = .retiring old next true true)
    (hop : s.mailboxes.release k keep = some m) :
    Dequeued deriveSenderKey s (s.deliver m (s.mailboxes.value next) (.discounting k)) := by
  have hm := hw.mailboxes.release hop
  obtain ⟨old', next', hhead', rfl⟩ := release_inv hop
  cases hhead.symm.trans hhead'
  have hfits := hw.consumer
  rw [hc] at hfits
  obtain ⟨msg, rest, hvalue, hwaiting⟩ := hw.mailboxes.waiting_of_retiring hhead
  have hkey : fromSender deriveSenderKey k (some msg) = true := by
    have hmem : msg ∈ s.mailboxes.waiting k := by
      rw [hwaiting]
      exact mem_cons_self
    have hlogged : some msg ∈ (s.mailboxes.enqueued k).map some :=
      mem_map_of_mem (mem_of_mem_drop hmem)
    rw [hw.logged.sent k] at hlogged
    exact (mem_filter.mp hlogged).2
  refine ⟨wired (s := s) ⟨rfl, rfl, fun _ => rfl, rfl, rfl⟩ hw hm hw.activeSenders
    (hfits.leave nofun (hfits.drained rfl) hfits.popping)
    (fun k' => ?_) ?_, rfl, rfl, .inr ⟨.take, ?_, False.elim, fun _ => trivial⟩⟩
  · change update s.mailboxes.returned k (s.mailboxes.returned k ++
      [s.mailboxes.value next]) k' = (s.delivered ++ [s.mailboxes.value next]).filter _
    rw [filter_append, ← hw.logged.delivered k', hvalue]
    by_cases hkk : k' = k
    · subst hkk
      simp [hkey]
    · have hother : fromSender deriveSenderKey k' (some msg) = false := by
        simp only [fromSender, map_some, Option.some.injEq, decide_eq_true_eq] at hkey
        simp [fromSender, hkey, Ne.symm hkk]
      simp [hkk, hother]
  · change none ∉ s.delivered ++ [s.mailboxes.value next]
    rw [hvalue]
    simp [hw.logged.genuine]
  · have hlt : (s.mailboxes.returned k).length < (s.mailboxes.enqueued k).length := by
      have hlen := congrArg List.length hwaiting
      rw [Memory.waiting, length_drop, length_cons] at hlen
      omega
    change s.protocol.consumerStep (consumerTurn s.consumer _) .take = _
    rw [hc]
    refine allow_eq_some.mpr ⟨hlt, Activation.ext rfl rfl rfl rfl ?_ ?_ rfl rfl rfl rfl ?_⟩
    · funext k'
      change update (fun k => (s.mailboxes.returned k).length) k
        ((s.mailboxes.returned k).length + 1) k' =
        (update s.mailboxes.returned k (s.mailboxes.returned k ++ [_]) k').length
      by_cases hkk : k' = k
      · subst hkk
        simp
      · simp [hkk]
    · change (s.sent.length : ℤ) - s.delivered.length - 1 =
        s.sent.length - (s.delivered ++ [s.mailboxes.value next]).length
      simp only [length_append, length_singleton]
      push_cast
      ring
    · change s.calls + ending s.consumer _ = s.calls
      rw [hc]
      rfl

lemma Wired.drain {contextPoolSize : ℕ} (hstep : s.drain contextPoolSize k = some s') :
    Dequeued deriveSenderKey s s' := by
  unfold UnboundedFairMailbox.drain at hstep
  split at hstep <;> obtain ⟨m, hop, rfl⟩ := map_eq_some_iff.mp hstep
  next hhead =>
    have hm := hw.mailboxes.loadHead hop
    obtain ⟨-, rfl⟩ := loadHead_inv hop
    exact hw.look hc hm rfl rfl rfl rfl
  next head hhead =>
    split_ifs with hnext
    · exact hw.miss hc hhead (by simpa using hnext) hop
    · have hm := hw.mailboxes.loadNext hop
      obtain ⟨head', -, rfl⟩ := loadNext_inv hop
      rw [← hc]
      exact hw.look hc hm rfl rfl rfl rfl
  next head next hhead =>
    have hm := hw.mailboxes.storeHead hop
    obtain ⟨head', next', -, rfl⟩ := storeHead_inv hop
    exact hw.look hc hm rfl rfl rfl rfl
  next old next y hhead =>
    have hm := hw.mailboxes.eraseValue hop
    obtain ⟨old', next', x', y', -, rfl⟩ := eraseValue_inv hop
    exact hw.look hc hm rfl rfl rfl rfl
  next old next hhead =>
    have hm := hw.mailboxes.eraseNext hop
    obtain ⟨old', next', x', y', -, rfl⟩ := eraseNext_inv hop
    exact hw.look hc hm rfl rfl rfl rfl
  next old next hhead => exact hw.take hc hhead hop

end

/-! ## The sender goes back onto the queue -/

lemma Wired.pushAgain (hc : s.consumer = .pushing k)
    {place : Option ℕ} (hop : UnboundedFairMailbox.push s.activeSenders none k place = some a) :
    Dequeued deriveSenderKey s
      (if isLast (s.activeSenders.producers none) then (s.setActiveSenders a).finishCall
        else s.setActiveSenders a) := by
  have hfits := hw.consumer
  rw [hc] at hfits
  have hkey : ∀ {k'}, DequeuePhase.pushing k = .pushing k' → k' = k := by
    rintro k' ⟨⟩
    rfl
  have hdrainers : ∀ {k' : κ} {phase : DequeuePhase κ}, s.mailboxes.consumers k' ≠ .idle →
      phase = .draining k' := by
    intro k' phase hk'
    cases hfits.draining hk'
  obtain ⟨honly, hpushed⟩ := push_spec hw.activeSenders
    (fun v k' h => hkey (hfits.pushWritten h)) (fun v k' h => hkey (hfits.pushCleared h)) hop
  have hkeeps : KeepsProducers s (s.setActiveSenders a) :=
    ⟨rfl, rfl, fun p => honly.others (some p) nofun, rfl, rfl⟩
  have hpopper : a.consumers () = .idle := by
    rw [honly.consumers]
    exact hfits.popping
  cases hpushed with
  | prepared hold hnew hwritten hcleared henqueued =>
    rw [hold]
    refine ⟨hkeeps.wired hw hw.mailboxes honly.sound ?_ hw.logged.delivered hw.logged.genuine,
      rfl, rfl, .inl ?_⟩
    · change CallerFits s.consumer _ _ _ _
      rw [hc]
      refine ⟨fun h => ?_, fun h => ?_, fun _ => ⟨k, rfl⟩, hpopper, hdrainers⟩
      · rw [hwritten _ _ h]
      · rw [hcleared _ _ h]
    · refine Activation.ext rfl rfl rfl rfl rfl rfl (congrFun henqueued ()) ?_ hkeeps.turnOf ?_ ?_
      · exact congrArg (fun r => (r ()).length) honly.returned
      · change consumerTurn s.consumer (a.producers none) = consumerTurn s.consumer _
        rw [hc, consumerTurn, consumerTurn, hold, hnew]
      · change s.calls + ending s.consumer (a.producers none) = s.calls + ending s.consumer _
        rw [hc, ending, ending, hold, hnew]
  | swapped hold hnew henqueued =>
    rw [hold]
    obtain ⟨q, x, y, hq⟩ := (isLast_iff _).mp hnew
    refine ⟨hkeeps.wired hw hw.mailboxes honly.sound ?_ hw.logged.delivered hw.logged.genuine,
      rfl, rfl, .inr ⟨.pushAgain, ?_, False.elim, fun _ => trivial⟩⟩
    · change CallerFits s.consumer _ _ _ _
      rw [hc]
      refine ⟨fun h => ?_, fun h => ?_, fun _ => ⟨k, rfl⟩, hpopper, hdrainers⟩
      · cases hq.symm.trans h
      · cases hq.symm.trans h
    · change s.protocol.consumerStep (consumerTurn s.consumer _) .pushAgain = _
      rw [hc, consumerTurn, hold]
      refine congrArg some (Activation.ext rfl rfl rfl rfl rfl rfl henqueued.symm ?_
        hkeeps.turnOf.symm ?_ ?_)
      · exact congrArg (fun r => (r ()).length) honly.returned.symm
      · change _ = consumerTurn s.consumer (a.producers none)
        rw [hc, consumerTurn, hnew]
        rfl
      · change s.calls + ending s.consumer _ + 1 = s.calls + ending s.consumer (a.producers none)
        rw [hc, ending, ending, hold, hnew]
        rfl
  | linked hold hnew henqueued =>
    rw [hold]
    refine ⟨wired (s := s) ⟨rfl, rfl, hkeeps.queue, rfl, rfl⟩ hw hw.mailboxes
      honly.sound ?_ hw.logged.delivered hw.logged.genuine, rfl, rfl, .inl ?_⟩
    · change CallerFits .idle (a.producers none) (a.consumers ()) (a.waiting ()) _
      rw [hnew]
      exact ⟨nofun, nofun, nofun, hpopper, hdrainers⟩
    · refine Activation.ext rfl rfl rfl rfl rfl rfl (congrFun henqueued ()) ?_ hkeeps.turnOf ?_ ?_
      · exact congrArg (fun r => (r ()).length) honly.returned
      · change .away = consumerTurn s.consumer _
        rw [hc, consumerTurn, hold]
        rfl
      · change s.calls + 1 = s.calls + ending s.consumer _
        rw [hc, ending, hold]
        rfl

lemma Wired.dequeue {contextPoolSize : ℕ} {place : Option ℕ}
    (hstep : s.dequeue contextPoolSize place keep = some s') :
    Dequeued deriveSenderKey s s' := by
  unfold UnboundedFairMailbox.dequeue at hstep
  split at hstep <;> try cases hstep
  next hc =>
    obtain ⟨a, hop, rfl⟩ := map_eq_some_iff.mp hstep
    have ha := hw.activeSenders.loadHead hop
    obtain ⟨-, rfl⟩ := loadHead_inv hop
    refine hw.walk hc ha rfl rfl rfl .popping nofun nofun nofun ?_
      fun _ => rfl
    change Memory.consumers (Memory.setConsumer _ _ _) () ≠ .idle
    rw [setConsumer_self]
    simp
  next hc => exact hw.pop hc hstep
  next hc => exact hw.retire hc hstep
  next hc => exact hw.drain hc hstep
  next hc => exact hw.deactivate hc
  next hc =>
    exact hw.serve hc (.settling _) nofun nofun (fun _ _ => id) 0 .discount rfl rfl False.elim
      trivial
  next hc => exact hw.settle hc
  next hc => exact hw.reset hc
  next hc =>
    exact hw.serve hc (.rechecking _) nofun nofun (fun _ _ => id) 0 .finish rfl rfl False.elim
      trivial
  next hc => exact hw.recheck hc
  next hc => exact hw.reactivate hc
  next hc =>
    obtain ⟨a, hop, rfl⟩ := map_eq_some_iff.mp hstep
    exact hw.pushAgain hc hop

end
end GoAkt.Actor.UnboundedFairMailbox
