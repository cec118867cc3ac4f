import GoAkt.Interleavings
import GoAkt.Tokens

/-!
# How senders are activated

The protocol of the fair mailbox without its memory: a queue of messages for each sender is
only counted, and the queue of active senders is a list of which a part has left. A producer
stores a message, counts it, announces it on the sender's pending counter, and on the first
announcement tries to activate the sender. The consumer takes a sender that is active, takes
one of its messages, and either pushes the sender again or gives it up.
-/
namespace GoAkt.Actor
open GoAkt.Interleavings GoAkt.Tokens Function

/-- What a producer has done for a sender. -/
inductive ProducerTurn (κ : Type) where
  | away
  | stored (k : κ)
  | counted (k : κ)
  | activating (k : κ)
  /-- It set the flag of the sender, which is not on the queue yet. -/
  | pushing (k : κ)
  deriving DecidableEq, Repr

inductive ConsumerTurn (κ : Type) where
  | away
  | holding (k : κ)
  /-- The queue of the sender looked empty. -/
  | missing (k : κ)
  | took (k : κ)
  | discounted (k : κ)
  | resetting (k : κ)
  | finishing (k : κ)
  | rechecking (k : κ)
  | reactivating (k : κ)
  | pushing (k : κ)
  deriving DecidableEq, Repr

open ConsumerTurn

@[ext] structure Activation (κ : Type) where
  active : κ → Bool
  pending : κ → ℤ
  length : ℤ
  /-- The numbers of messages stored and taken, for each sender and in all. -/
  stored : κ → ℕ
  taken : κ → ℕ
  undelivered : ℤ
  /-- The senders in the order in which they were pushed, and how many were popped. -/
  pushed : List κ
  popped : ℕ
  producers : ℕ → ProducerTurn κ
  consumer : ConsumerTurn κ
  /-- The number of calls of the consumer that are over. -/
  calls : ℕ

inductive ActivationEvent (κ : Type) where
  | store (p : ℕ) (k : κ)
  | count (p : ℕ)
  | announce (p : ℕ)
  | activate (p : ℕ)
  | push (p : ℕ)
  | nothing
  | pop
  | miss
  | deactivate
  | take
  | discount
  | settle
  | reset
  | finish
  | recheck
  | reactivate
  | pushAgain

namespace Activation
variable {κ : Type} [DecidableEq κ] (s : Activation κ)

def setProducer (p : ℕ) (turn : ProducerTurn κ) : Activation κ :=
  { s with producers := update s.producers p turn }

def setConsumer (turn : ConsumerTurn κ) : Activation κ :=
  { s with consumer := turn }

def setActive (k : κ) (flag : Bool) : Activation κ :=
  { s with active := update s.active k flag }

def setPending (k : κ) (n : ℤ) : Activation κ :=
  { s with pending := update s.pending k n }

/-- The consumer's call ends. -/
def finishCall : Activation κ :=
  { s with consumer := .away, calls := s.calls + 1 }

def producerStep (p : ℕ) : ProducerTurn κ → ActivationEvent κ → Option (Activation κ)
  | .away, .store _ k => some ({ s with
      stored := update s.stored k (s.stored k + 1)
      undelivered := s.undelivered + 1 }.setProducer p (.stored k))
  | .stored k, .count _ => some ({ s with length := s.length + 1 }.setProducer p (.counted k))
  | .counted k, .announce _ => some ((s.setPending k (s.pending k + 1)).setProducer p
      (if s.pending k + 1 = 1 then .activating k else .away))
  | .activating k, .activate _ => some (if s.active k then s.setProducer p .away
      else (s.setActive k true).setProducer p (.pushing k))
  | .pushing k, .push _ => some ({ s with pushed := s.pushed ++ [k] }.setProducer p .away)
  | _, _ => none

def consumerStep : ConsumerTurn κ → ActivationEvent κ → Option (Activation κ)
  | .away, .nothing => some s.finishCall
  | .away, .pop => (s.pushed[s.popped]?).map fun k =>
      { s with popped := s.popped + 1 }.setConsumer (.holding k)
  | .holding k, .miss => some (s.setConsumer (.missing k))
  | .missing k, .deactivate => some (s.setActive k false).finishCall
  | .holding k, .take => allow (s.taken k < s.stored k) ({ s with
      taken := update s.taken k (s.taken k + 1)
      undelivered := s.undelivered - 1 }.setConsumer (.took k))
  | .took k, .discount => some ({ s with length := s.length - 1 }.setConsumer (.discounted k))
  | .discounted k, .settle => some ((s.setPending k (s.pending k - 1)).setConsumer
      (if 0 < s.pending k - 1 then .pushing k
        else if s.pending k - 1 < 0 then .resetting k else .finishing k))
  | .resetting k, .reset => some ((s.setPending k 0).setConsumer (.finishing k))
  | .finishing k, .finish => some ((s.setActive k false).setConsumer (.rechecking k))
  | .rechecking k, .recheck => some (if 0 < s.pending k then s.setConsumer (.reactivating k)
      else s.finishCall)
  | .reactivating k, .reactivate => some (if s.active k then s.finishCall
      else (s.setActive k true).setConsumer (.pushing k))
  | .pushing k, .pushAgain => some { s with pushed := s.pushed ++ [k] }.finishCall
  | _, _ => none

def step (e : ActivationEvent κ) : Option (Activation κ) :=
  match e with
  | .store p _ => s.producerStep p (s.producers p) e
  | .count p => s.producerStep p (s.producers p) e
  | .announce p => s.producerStep p (s.producers p) e
  | .activate p => s.producerStep p (s.producers p) e
  | .push p => s.producerStep p (s.producers p) e
  | _ => s.consumerStep s.consumer e

end Activation

def activationSystem (κ : Type) [DecidableEq κ] : System (Activation κ) (ActivationEvent κ) where
  start := ⟨fun _ => false, fun _ => 0, 0, fun _ => 0, fun _ => 0, 0, [], 0, fun _ => .away,
    .away, 0⟩
  step := Activation.step

/-! ## Who holds a sender -/

inductive SenderHolder where
  /-- A place of the queue of active senders, counted from the first push. -/
  | queue (i : ℕ)
  | producer (p : ℕ)
  | consumer
  deriving DecidableEq

def ConsumerTurn.token {κ : Type} : ConsumerTurn κ → Option κ
  | .holding k => some k
  | .missing k => some k
  | .took k => some k
  | .discounted k => some k
  | .resetting k => some k
  | .finishing k => some k
  | .pushing k => some k
  | _ => none

namespace Activation
variable {κ : Type} {s s' : Activation κ} {k : κ} {h : SenderHolder}

def Holds (s : Activation κ) (k : κ) : SenderHolder → Prop
  | .queue i => s.popped ≤ i ∧ s.pushed[i]? = some k
  | .producer p => s.producers p = .pushing k
  | .consumer => s.consumer.token = some k

/-- The flag of a sender is set exactly while one party holds the sender. -/
def Held (s : Activation κ) : Prop := ∀ k, Exclusive (s.active k = true) (s.Holds k)

lemma Held.same (hheld : s.Held) (hactive : s'.active = s.active)
    (hholds : ∀ k h, s'.Holds k h ↔ s.Holds k h) : s'.Held :=
  fun k => (hheld k).same (by rw [hactive]) (hholds k)

lemma holds_setProducer (p : ℕ) (turn : ProducerTurn κ) :
    (s.setProducer p turn).Holds k h ↔
      if h = .producer p then turn = .pushing k else s.Holds k h := by
  cases h with
  | producer p' =>
    by_cases hp : p' = p
    · subst hp
      simp [Holds, setProducer]
    · simp [Holds, setProducer, hp]
  | _ => simp [Holds, setProducer]

lemma holds_setConsumer (turn : ConsumerTurn κ) :
    (s.setConsumer turn).Holds k h ↔
      if h = .consumer then turn.token = some k else s.Holds k h := by
  cases h <;> simp [Holds, setConsumer]

lemma holds_finishCall : s.finishCall.Holds k h ↔ h ≠ .consumer ∧ s.Holds k h := by
  cases h <;> simp [Holds, finishCall, token]

/-- A sender enters the queue at its end. -/
lemma holds_push (hle : s.popped ≤ s.pushed.length) (k₀ : κ) :
    ({ s with pushed := s.pushed ++ [k₀] } : Activation κ).Holds k h ↔
      h = .queue s.pushed.length ∧ k₀ = k ∨ h ≠ .queue s.pushed.length ∧ s.Holds k h := by
  cases h with
  | queue i =>
    rcases lt_trichotomy i s.pushed.length with hi | hi | hi
    · simp [Holds, List.getElem?_append_left hi, hi.ne]
    · subst hi
      simp [Holds, hle]
    · have hnone : s.pushed[i]? = none := List.getElem?_eq_none hi.le
      have hnone' : (s.pushed ++ [k₀])[i]? = none := List.getElem?_eq_none (by simpa using hi)
      simp [Holds, hi.ne', hnone, hnone']
  | _ => simp [Holds]

/-- The first sender leaves the queue. -/
lemma holds_pop :
    ({ s with popped := s.popped + 1 } : Activation κ).Holds k h ↔
      h ≠ .queue s.popped ∧ s.Holds k h := by
  cases h with
  | queue i =>
    simp only [Holds, ne_eq, SenderHolder.queue.injEq]
    constructor
    · rintro ⟨hle, hi⟩
      exact ⟨by omega, by omega, hi⟩
    · rintro ⟨hne, hle, hi⟩
      exact ⟨by omega, hi⟩
  | _ => simp [Holds]

/-- A producer moves on with the same sender in its hands, or none. -/
lemma Held.producer (hheld : s.Held) {p : ℕ} {turn turn' : ProducerTurn κ}
    (hp : s.producers p = turn) (hproducers : s'.producers = update s.producers p turn')
    (hsame : (s'.active, s'.pushed, s'.popped, s'.consumer) =
      (s.active, s.pushed, s.popped, s.consumer))
    (hturn : ∀ k, turn' = .pushing k ↔ turn = .pushing k) : s'.Held := by
  simp only [Prod.mk.injEq] at hsame
  obtain ⟨hactive, hpushed, hpopped, hconsumer⟩ := hsame
  refine hheld.same hactive fun k h => ?_
  cases h with
  | producer p' =>
    rw [Holds, hproducers]
    by_cases hp' : p' = p
    · rw [hp', update_self, Holds, hp]
      exact hturn k
    · rw [update_of_ne hp', Holds]
  | _ => simp only [Holds, hpushed, hpopped, hconsumer]

/-- The consumer moves on with the same sender in its hands, or none. -/
lemma Held.turn (hheld : s.Held) {turn : ConsumerTurn κ} (hc : s.consumer = turn)
    (hsame : (s'.active, s'.producers, s'.pushed, s'.popped) =
      (s.active, s.producers, s.pushed, s.popped)) (htoken : s'.consumer.token = turn.token) :
    s'.Held := by
  simp only [Prod.mk.injEq] at hsame
  obtain ⟨hactive, hproducers, hpushed, hpopped⟩ := hsame
  refine hheld.same hactive fun k h => ?_
  cases h <;> simp only [Holds, hproducers, hpushed, hpopped, htoken, hc]

variable [DecidableEq κ]

@[simp] lemma holds_setActive (k₀ : κ) (flag : Bool) :
    (s.setActive k₀ flag).Holds k h ↔ s.Holds k h := by
  cases h <;> rfl

lemma setActive_true (k₀ : κ) :
    (s.setActive k₀ true).active k = true ↔ k = k₀ ∨ s.active k = true := by
  by_cases hk : k = k₀ <;> simp [setActive, hk]

lemma setActive_false (k₀ : κ) :
    (s.setActive k₀ false).active k = true ↔ k ≠ k₀ ∧ s.active k = true := by
  by_cases hk : k = k₀ <;> simp [setActive, hk]

section
variable (hheld : s.Held)
include hheld

/-- The flag is set by a party that holds the sender from now on. -/
lemma Held.acquire (k₀ : κ) (h₀ : SenderHolder) (hnot : s.active k₀ = false)
    (hactive : ∀ k, s'.active k = true ↔ k = k₀ ∨ s.active k = true)
    (hholds : ∀ k h, s'.Holds k h ↔ h = h₀ ∧ k = k₀ ∨ h ≠ h₀ ∧ s.Holds k h)
    (hold : ∀ k, ¬s.Holds k h₀) : s'.Held := by
  intro k
  by_cases hk : k = k₀
  · subst hk
    refine (hheld k).acquire (by simp [hnot]) ((hactive k).mpr (.inl rfl))
      ((hholds k h₀).mpr (.inl ⟨rfl, rfl⟩)) fun h' hh' => ?_
    rcases (hholds k h').mp hh' with ⟨heq, -⟩ | ⟨-, hh⟩
    · exact .inl heq
    · exact .inr hh
  · refine (hheld k).same (by simp [hactive, hk]) fun h => ?_
    rw [hholds]
    constructor
    · rintro (⟨-, heq⟩ | ⟨-, hh⟩)
      · exact absurd heq hk
      · exact hh
    · intro hh
      refine .inr ⟨?_, hh⟩
      rintro rfl
      exact hold k hh

/-- The flag is cleared by the party that held the sender. -/
lemma Held.release (k₀ : κ) (h₀ : SenderHolder) (hh₀ : s.Holds k₀ h₀)
    (hactive : ∀ k, s'.active k = true ↔ k ≠ k₀ ∧ s.active k = true)
    (hholds : ∀ k h, s'.Holds k h ↔ h ≠ h₀ ∧ s.Holds k h)
    (hold : ∀ k, s.Holds k h₀ → k = k₀) : s'.Held := by
  intro k
  by_cases hk : k = k₀
  · subst hk
    exact (hheld k).release (by simp [hactive]) hh₀ (by simp [hholds])
      fun h' hh' => ((hholds k h').mp hh').2
  · refine (hheld k).same (by simp [hactive, hk]) fun h => ?_
    rw [hholds]
    refine ⟨And.right, fun hh => ⟨?_, hh⟩⟩
    rintro rfl
    exact hk (hold k hh)

lemma Held.move (k₀ : κ) (h₀ h₁ : SenderHolder) (hh₀ : s.Holds k₀ h₀)
    (hactive : s'.active = s.active)
    (hholds : ∀ k h, s'.Holds k h ↔ h = h₁ ∧ k = k₀ ∨ h ≠ h₁ ∧ h ≠ h₀ ∧ s.Holds k h)
    (hold : ∀ k, s.Holds k h₀ → k = k₀) (hnew : ∀ k, ¬s.Holds k h₁) : s'.Held := by
  intro k
  by_cases hk : k = k₀
  · subst hk
    refine (hheld k).move (by rw [hactive]) hh₀ ((hholds k h₁).mpr (.inl ⟨rfl, rfl⟩)) fun h hh => ?_
    rcases (hholds k h).mp hh with ⟨heq, -⟩ | ⟨-, hne, hh⟩
    · exact .inl heq
    · exact .inr ⟨hh, hne⟩
  · refine (hheld k).same (by rw [hactive]) fun h => ?_
    rw [hholds]
    constructor
    · rintro (⟨-, heq⟩ | ⟨-, -, hh⟩)
      · exact absurd heq hk
      · exact hh
    · intro hh
      refine .inr ⟨?_, ?_, hh⟩
      · rintro rfl
        exact hnew k hh
      · rintro rfl
        exact hk (hold k hh)

lemma Held.producerStep (hle : s.popped ≤ s.pushed.length) {p : ℕ}
    {e : ActivationEvent κ} (hstep : s.producerStep p (s.producers p) e = some s') :
    s'.Held := by
  unfold Activation.producerStep at hstep
  split at hstep <;> cases hstep
  next k hp => exact hheld.producer hp rfl rfl (by simp)
  next k _ hp => exact hheld.producer hp rfl rfl (by simp)
  next k _ hp =>
    refine hheld.producer hp rfl rfl fun k' => ?_
    split_ifs <;> simp
  next k₀ _ hp =>
    split_ifs with hactive
    · exact hheld.producer hp rfl rfl (by simp)
    · refine hheld.acquire k₀ (.producer p) (by simpa using hactive) (fun k => setActive_true k₀)
        (fun k h => ?_) (fun k => ?_)
      · rw [holds_setProducer, holds_setActive]
        split_ifs with hh <;> simp [hh, eq_comm]
      · simp [Holds, hp]
  next k₀ _ hp =>
    refine hheld.move k₀ (.producer p) (.queue s.pushed.length) hp rfl
      (fun k h => ?_) (fun k hk => ?_) (fun k hk => ?_)
    · rw [holds_setProducer, holds_push hle]
      split_ifs with hh
      · simp [hh]
      · simp [hh, eq_comm]
    · simpa [Holds, hp, eq_comm] using hk
    · simp [Holds] at hk

lemma Held.consumerStep (hle : s.popped ≤ s.pushed.length)
    {e : ActivationEvent κ} (hstep : s.consumerStep s.consumer e = some s') : s'.Held := by
  unfold Activation.consumerStep at hstep
  split at hstep <;> try cases hstep
  next hc => exact hheld.turn hc rfl rfl
  next hc =>
    obtain ⟨k₀, hpop, rfl⟩ := Option.map_eq_some_iff.mp hstep
    refine hheld.move k₀ (.queue s.popped) .consumer ⟨le_rfl, hpop⟩ rfl
      (fun k h => ?_) (fun k hk => ?_) (fun k hk => ?_)
    · rw [holds_setConsumer, holds_pop]
      split_ifs with hh
      · simp [hh, token, eq_comm]
      · simp [hh]
    · simpa [Holds, hpop, eq_comm] using hk
    · simp [Holds, hc, token] at hk
  next k₀ hc => exact hheld.turn hc rfl rfl
  next k₀ hc =>
    refine hheld.release k₀ .consumer (by rw [Holds, hc]; rfl) (fun k => setActive_false k₀)
      (fun k h => ?_) (fun k hk => ?_)
    · rw [holds_finishCall, holds_setActive]
    · simpa [Holds, hc, token, eq_comm] using hk
  next k₀ hc =>
    obtain ⟨-, rfl⟩ := allow_eq_some.mp hstep
    exact hheld.turn hc rfl rfl
  next k₀ hc => exact hheld.turn hc rfl rfl
  next k₀ hc =>
    refine hheld.turn hc rfl ?_
    rw [setConsumer]
    split_ifs <;> rfl
  next k₀ hc => exact hheld.turn hc rfl rfl
  next k₀ hc =>
    refine hheld.release k₀ .consumer (by rw [Holds, hc]; rfl) (fun k => setActive_false k₀)
      (fun k h => ?_) (fun k hk => ?_)
    · rw [holds_setConsumer, holds_setActive]
      split_ifs with hh <;> simp [hh, token]
    · simpa [Holds, hc, token, eq_comm] using hk
  next k₀ hc =>
    split_ifs
    · exact hheld.turn hc rfl rfl
    · exact hheld.turn hc rfl rfl
  next k₀ hc =>
    split_ifs with hactive
    · exact hheld.turn hc rfl rfl
    · refine hheld.acquire k₀ .consumer (by simpa using hactive) (fun k => setActive_true k₀)
        (fun k h => ?_) (fun k => ?_)
      · rw [holds_setConsumer, holds_setActive]
        split_ifs with hh <;> simp [hh, token, eq_comm]
      · simp [Holds, hc, token]
  next k₀ hc =>
    refine hheld.move k₀ .consumer (.queue s.pushed.length)
      (by rw [Holds, hc]; rfl) rfl (fun k h => ?_) (fun k hk => ?_) (fun k hk => ?_)
    · rw [holds_finishCall, holds_push hle]
      by_cases hh : h = .consumer <;> simp [hh, eq_comm]
    · simpa [Holds, hc, token, eq_comm] using hk
    · simp [Holds] at hk

end
end Activation

/-! ## The counters -/

/-- The producer has stored a message of the sender and not announced it. -/
def ProducerTurn.Late {κ : Type} (k : κ) (turn : ProducerTurn κ) : Prop :=
  turn = .stored k ∨ turn = .counted k

def ProducerTurn.Uncounted {κ : Type} : ProducerTurn κ → Prop
  | .stored _ => True
  | _ => False

instance {κ : Type} [DecidableEq κ] (k : κ) : DecidablePred (ProducerTurn.Late k) :=
  fun _ => inferInstanceAs (Decidable (_ ∨ _))

instance {κ : Type} : DecidablePred (ProducerTurn.Uncounted (κ := κ))
  | .away => isFalse id
  | .stored _ => isTrue trivial
  | .counted _ => isFalse id
  | .activating _ => isFalse id
  | .pushing _ => isFalse id

/-- The consumer has taken a message of the sender and not settled it. -/
def ConsumerTurn.owed {κ : Type} [DecidableEq κ] (k : κ) : ConsumerTurn κ → ℤ
  | .took k' => if k' = k then 1 else 0
  | .discounted k' => if k' = k then 1 else 0
  | _ => 0

def ConsumerTurn.uncounted {κ : Type} : ConsumerTurn κ → ℤ
  | .took _ => 1
  | _ => 0

namespace Activation
variable {κ : Type} [DecidableEq κ] {s s' : Activation κ}

/-- Where the protocol goes wrong: a sender is deactivated although a message of it is
announced and nobody is going to activate it, or its counter is reset although messages were
announced since it was found negative. -/
def Strands (s : Activation κ) : ActivationEvent κ → Prop
  | .deactivate => ∃ k, s.consumer = .missing k ∧ 0 < s.pending k ∧
      ∀ p, s.producers p ≠ .activating k
  | .reset => ∃ k, s.consumer = .resetting k ∧ 0 < s.pending k
  | _ => False

def late (s : Activation κ) (k : κ) : Set ℕ := {p | (s.producers p).Late k}

def uncounted (s : Activation κ) : Set ℕ := {p | (s.producers p).Uncounted}

/-- Every message of a sender that is not taken is on its pending counter or has yet to be
announced, and the length counts what is stored and not delivered. -/
structure Balanced (s : Activation κ) : Prop where
  popped_le : s.popped ≤ s.pushed.length
  taken_le : ∀ k, s.taken k ≤ s.stored k
  late_finite : ∀ k, (s.late k).Finite
  pending_ge : ∀ k, (s.stored k : ℤ) - s.taken k + s.consumer.owed k ≤
    s.pending k + (s.late k).ncard
  uncounted_finite : s.uncounted.Finite
  length_eq : s.length + s.uncounted.ncard = s.undelivered + s.consumer.uncounted

variable {p : ℕ}

/-- A producer moves on: what it adds to the counters is what it no longer owes. -/
lemma Balanced.producer (h : s.Balanced) {turn : ProducerTurn κ}
    (hproducers : s'.producers = update s.producers p turn)
    (hconsumer : s'.consumer = s.consumer) (hpopped : s'.popped = s.popped)
    (hpushed : s.pushed.length ≤ s'.pushed.length) (htaken : s'.taken = s.taken)
    (hstored : ∀ k, s.stored k ≤ s'.stored k)
    (hpending : ∀ k, (s'.stored k : ℤ) - s.stored k + (if (s.producers p).Late k then 1 else 0) ≤
      s'.pending k - s.pending k + if turn.Late k then 1 else 0)
    (hlength : s'.length - s.length + (if turn.Uncounted then 1 else 0) =
      s'.undelivered - s.undelivered + if (s.producers p).Uncounted then 1 else 0) :
    s'.Balanced := by
  have hlate : ∀ k, s'.late k = {j | (update s.producers p turn j).Late k} := by
    intro k
    rw [late, hproducers]
  have huncounted : s'.uncounted = {j | (update s.producers p turn j).Uncounted} := by
    rw [uncounted, hproducers]
  refine ⟨?_, fun k => ?_, fun k => ?_, fun k => ?_, ?_, ?_⟩
  · rw [hpopped]
    exact h.popped_le.trans hpushed
  · rw [htaken]
    exact (h.taken_le k).trans (hstored k)
  · rw [hlate]
    exact finite_update _ _ _ _ (h.late_finite k)
  · have hcount := ncard_update s.producers (ProducerTurn.Late k) p turn (h.late_finite k)
    have hold := h.pending_ge k
    have hnew := hpending k
    rw [late] at hold
    rw [hlate, htaken, hconsumer]
    split_ifs at hcount hnew <;> omega
  · rw [huncounted]
    exact finite_update _ _ _ _ h.uncounted_finite
  · have hcount := ncard_update s.producers ProducerTurn.Uncounted p turn h.uncounted_finite
    have hold := h.length_eq
    rw [uncounted] at hold
    rw [huncounted, hconsumer]
    split_ifs at hcount hlength <;> omega

lemma Balanced.consumer (h : s.Balanced) (hproducers : s'.producers = s.producers)
    (hpopped : s'.popped ≤ s'.pushed.length) (hstored : s'.stored = s.stored)
    (htaken : ∀ k, s'.taken k ≤ s.stored k)
    (hpending : ∀ k, (s.taken k : ℤ) - s'.taken k + s'.consumer.owed k - s.consumer.owed k ≤
      s'.pending k - s.pending k)
    (hlength : s'.length - s.length =
      s'.undelivered - s.undelivered + s'.consumer.uncounted - s.consumer.uncounted) :
    s'.Balanced := by
  have hlate : ∀ k, s'.late k = s.late k := by
    intro k
    rw [late, hproducers, late]
  have huncounted : s'.uncounted = s.uncounted := by
    rw [uncounted, hproducers, uncounted]
  refine ⟨hpopped, fun k => ?_, fun k => ?_, fun k => ?_, ?_, ?_⟩
  · rw [hstored]
    exact htaken k
  · rw [hlate]
    exact h.late_finite k
  · have hold := h.pending_ge k
    have hnew := hpending k
    rw [hlate, hstored]
    omega
  · rw [huncounted]
    exact h.uncounted_finite
  · have hold := h.length_eq
    rw [huncounted]
    omega

/-- The consumer moves on without touching a counter. -/
lemma Balanced.turn (h : s.Balanced) {turn : ConsumerTurn κ} (hc : s.consumer = turn)
    (hsame : (s'.producers, s'.stored, s'.taken, s'.pending, s'.length, s'.undelivered) =
      (s.producers, s.stored, s.taken, s.pending, s.length, s.undelivered))
    (hpopped : s'.popped ≤ s'.pushed.length) (howed : ∀ k, s'.consumer.owed k = turn.owed k)
    (huncounted : s'.consumer.uncounted = turn.uncounted) : s'.Balanced := by
  simp only [Prod.mk.injEq] at hsame
  obtain ⟨hproducers, hstored, htaken, hpending, hlength, hundelivered⟩ := hsame
  refine h.consumer hproducers hpopped hstored (fun k => ?_) (fun k => ?_) ?_
  · rw [htaken]
    exact h.taken_le k
  · rw [htaken, hpending, howed, hc]
    omega
  · rw [hlength, hundelivered, huncounted, hc]
    omega

variable {e : ActivationEvent κ}

lemma Balanced.producerStep (h : s.Balanced)
    (hstep : s.producerStep p (s.producers p) e = some s') : s'.Balanced := by
  unfold Activation.producerStep at hstep
  split at hstep <;> cases hstep
  next k₀ hp =>
    refine h.producer rfl rfl rfl le_rfl rfl (fun k => ?_) (fun k => ?_) ?_
    · change s.stored k ≤ update s.stored k₀ (s.stored k₀ + 1) k
      by_cases hk : k = k₀
      · subst hk
        simp
      · simp [hk]
    · change ((update s.stored k₀ (s.stored k₀ + 1) k : ℕ) : ℤ) - s.stored k + _ ≤
        s.pending k - s.pending k + _
      by_cases hk : k = k₀
      · subst hk
        simp [hp, ProducerTurn.Late]
      · simp [hp, hk, Ne.symm hk, ProducerTurn.Late]
    · simp [setProducer, hp, ProducerTurn.Uncounted]
  next k₀ _ hp =>
    refine h.producer rfl rfl rfl le_rfl rfl (fun k => le_rfl) (fun k => ?_) ?_
    · simp [setProducer, hp, ProducerTurn.Late]
    · simp [setProducer, hp, ProducerTurn.Uncounted]
  next k₀ _ hp =>
    refine h.producer rfl rfl rfl le_rfl rfl (fun k => le_rfl) (fun k => ?_) ?_
    · change (s.stored k : ℤ) - s.stored k + _ ≤
        update s.pending k₀ (s.pending k₀ + 1) k - s.pending k + _
      by_cases hk : k = k₀
      · subst hk
        rw [update_self]
        split_ifs <;> simp_all [ProducerTurn.Late]
      · rw [update_of_ne hk]
        split_ifs <;> simp_all [ProducerTurn.Late, Ne.symm hk]
    · split_ifs <;> simp_all [setProducer, setPending, ProducerTurn.Uncounted]
  next k₀ _ hp =>
    split_ifs with hactive
    · refine h.producer rfl rfl rfl le_rfl rfl (fun k => le_rfl) (fun k => ?_) ?_
      · simp [setProducer, hp, ProducerTurn.Late]
      · simp [setProducer, hp, ProducerTurn.Uncounted]
    · refine h.producer rfl rfl rfl le_rfl rfl (fun k => le_rfl) (fun k => ?_) ?_
      · simp [setProducer, setActive, hp, ProducerTurn.Late]
      · simp [setProducer, setActive, hp, ProducerTurn.Uncounted]
  next k₀ _ hp =>
    refine h.producer rfl rfl rfl ?_ rfl (fun k => le_rfl) (fun k => ?_) ?_
    · simp [setProducer]
    · simp [setProducer, hp, ProducerTurn.Late]
    · simp [setProducer, hp, ProducerTurn.Uncounted]

lemma Balanced.consumerStep (h : s.Balanced)
    (hok : e = .reset → ∀ k, s.consumer = .resetting k → s.pending k ≤ 0)
    (hstep : s.consumerStep s.consumer e = some s') : s'.Balanced := by
  have hpopped := h.popped_le
  unfold Activation.consumerStep at hstep
  split at hstep <;> try cases hstep
  next hc => exact h.turn hc rfl hpopped (fun _ => rfl) rfl
  next hc =>
    obtain ⟨k₀, hpop, rfl⟩ := Option.map_eq_some_iff.mp hstep
    exact h.turn hc rfl (List.getElem?_eq_some_iff.mp hpop).1 (fun _ => rfl) rfl
  next k₀ hc => exact h.turn hc rfl hpopped (fun _ => rfl) rfl
  next k₀ hc => exact h.turn hc rfl hpopped (fun _ => rfl) rfl
  next k₀ hc =>
    obtain ⟨hlt, rfl⟩ := allow_eq_some.mp hstep
    refine h.consumer rfl hpopped rfl (fun k => ?_) (fun k => ?_) ?_
    · change update s.taken k₀ (s.taken k₀ + 1) k ≤ s.stored k
      by_cases hk : k = k₀
      · subst hk
        simpa using hlt
      · simpa [hk] using h.taken_le k
    · change (s.taken k : ℤ) - (update s.taken k₀ (s.taken k₀ + 1) k : ℕ) +
        (ConsumerTurn.took k₀).owed k - s.consumer.owed k ≤ s.pending k - s.pending k
      by_cases hk : k = k₀
      · subst hk
        simp [hc, ConsumerTurn.owed]
      · simp [hc, hk, Ne.symm hk, ConsumerTurn.owed]
    · simp [setConsumer, hc, ConsumerTurn.uncounted]
  next k₀ hc =>
    refine h.consumer rfl hpopped rfl h.taken_le (fun k => ?_) ?_
    · simp [setConsumer, hc, ConsumerTurn.owed]
    · simp [setConsumer, hc, ConsumerTurn.uncounted]
  next k₀ hc =>
    refine h.consumer rfl hpopped rfl h.taken_le (fun k => ?_) ?_
    · change (s.taken k : ℤ) - s.taken k + ConsumerTurn.owed k (ite _ _ _) - s.consumer.owed k ≤
        update s.pending k₀ (s.pending k₀ - 1) k - s.pending k
      rw [hc]
      by_cases hk : k = k₀
      · subst hk
        rw [update_self]
        split_ifs <;> simp [ConsumerTurn.owed]
      · rw [update_of_ne hk]
        split_ifs <;> simp [ConsumerTurn.owed, Ne.symm hk]
    · rw [hc]
      split_ifs <;> simp [setConsumer, setPending, ConsumerTurn.uncounted]
  next k₀ hc =>
    -- The reset does not lower the counter.
    have hneg : s.pending k₀ ≤ 0 := hok rfl k₀ hc
    refine h.consumer rfl hpopped rfl h.taken_le (fun k => ?_) ?_
    · change (s.taken k : ℤ) - s.taken k + (ConsumerTurn.finishing k₀).owed k -
        s.consumer.owed k ≤ update s.pending k₀ 0 k - s.pending k
      by_cases hk : k = k₀
      · subst hk
        simpa [hc, ConsumerTurn.owed] using hneg
      · simp [hc, hk, ConsumerTurn.owed]
    · simp [setConsumer, setPending, hc, ConsumerTurn.uncounted]
  next k₀ hc => exact h.turn hc rfl hpopped (fun _ => rfl) rfl
  next k₀ hc =>
    split_ifs
    · exact h.turn hc rfl hpopped (fun _ => rfl) rfl
    · exact h.turn hc rfl hpopped (fun _ => rfl) rfl
  next k₀ hc =>
    split_ifs
    · exact h.turn hc rfl hpopped (fun _ => rfl) rfl
    · exact h.turn hc rfl hpopped (fun _ => rfl) rfl
  next k₀ hc =>
    refine h.turn hc rfl ?_ (fun _ => rfl) rfl
    simpa [finishCall] using hpopped.trans (Nat.le_succ _)

/-! ## No sender is forgotten -/

/-- An announced message of a sender that is not active has somebody who is going to look
after it. -/
def Attended (s : Activation κ) : Prop :=
  ∀ k, s.active k = false → 0 < s.pending k →
    (∃ p, s.producers p = .activating k) ∨ s.consumer = .rechecking k ∨ s.consumer = .reactivating k

section
omit [DecidableEq κ]

/-- A producer moves: it looks after the sender from now on, or it did not before. -/
lemma Attended.producer (h : s.Attended) {turn : ProducerTurn κ}
    (hproducers : s'.producers = update s.producers p turn) (hconsumer : s'.consumer = s.consumer)
    (hkeep : ∀ k, s'.active k = false → 0 < s'.pending k → turn = .activating k ∨
      s.active k = false ∧ 0 < s.pending k ∧ s.producers p ≠ .activating k) : s'.Attended := by
  intro k hactive hpending
  rw [hproducers, hconsumer]
  rcases hkeep k hactive hpending with rfl | ⟨hactive, hpending, hp⟩
  · exact .inl ⟨p, update_self ..⟩
  · rcases h k hactive hpending with ⟨p', hp'⟩ | hc
    · have hne : p' ≠ p := by
        rintro rfl
        exact hp hp'
      exact .inl ⟨p', (update_of_ne hne ..).trans hp'⟩
    · exact .inr hc

/-- The consumer moves: somebody looks after the sender, or it was not the consumer. -/
lemma Attended.consumer (h : s.Attended) (hproducers : s'.producers = s.producers)
    (hkeep : ∀ k, s'.active k = false → 0 < s'.pending k →
      ((∃ p, s.producers p = .activating k) ∨ s'.consumer = .rechecking k ∨
        s'.consumer = .reactivating k) ∨
      s.active k = false ∧ 0 < s.pending k ∧ s.consumer ≠ .rechecking k ∧
        s.consumer ≠ .reactivating k) : s'.Attended := by
  intro k hactive hpending
  rw [hproducers]
  rcases hkeep k hactive hpending with hnew | ⟨hactive, hpending, hno, hno'⟩
  · exact hnew
  · rcases h k hactive hpending with hp | hc | hc
    · exact .inl hp
    · exact absurd hc hno
    · exact absurd hc hno'

/-- The consumer moves between turns in which it looks after nobody. -/
lemma Attended.turn (h : s.Attended) (hproducers : s'.producers = s.producers)
    (hactive : s'.active = s.active) (hpending : s'.pending = s.pending)
    (hno : ∀ k, s.consumer ≠ .rechecking k) (hno' : ∀ k, s.consumer ≠ .reactivating k) :
    s'.Attended :=
  h.consumer hproducers fun k ha hp => .inr ⟨hactive ▸ ha, hpending ▸ hp, hno k, hno' k⟩

end

lemma Attended.producerStep (h : s.Attended)
    (hstep : s.producerStep p (s.producers p) e = some s') : s'.Attended := by
  unfold Activation.producerStep at hstep
  split at hstep <;> cases hstep
  next k₀ hp => exact h.producer rfl rfl fun k ha hn => .inr ⟨ha, hn, by simp [hp]⟩
  next k₀ _ hp => exact h.producer rfl rfl fun k ha hn => .inr ⟨ha, hn, by simp [hp]⟩
  next k₀ _ hp =>
    -- Only the first announcement is followed by an activation.
    refine h.producer rfl rfl fun k ha hn => ?_
    change 0 < update s.pending k₀ (s.pending k₀ + 1) k at hn
    by_cases hk : k = k₀
    · subst hk
      rw [update_self] at hn
      by_cases hone : s.pending k + 1 = 1
      · exact .inl (if_pos hone)
      · exact .inr ⟨ha, by omega, by simp [hp]⟩
    · rw [update_of_ne hk] at hn
      exact .inr ⟨ha, hn, by simp [hp]⟩
  next k₀ _ hp =>
    split_ifs with hactive
    · refine h.producer rfl rfl fun k ha hn => .inr ⟨ha, hn, ?_⟩
      rw [hp]
      rintro ⟨⟩
      cases hactive.symm.trans ha
    · refine h.producer rfl rfl fun k ha hn => ?_
      change update s.active k₀ true k = false at ha
      by_cases hk : k = k₀
      · subst hk
        simp at ha
      · rw [update_of_ne hk] at ha
        exact .inr ⟨ha, hn, by simp [hp, Ne.symm hk]⟩
  next k₀ _ hp => exact h.producer rfl rfl fun k ha hn => .inr ⟨ha, hn, by simp [hp]⟩

lemma Attended.consumerStep (h : s.Attended) (hok : ¬s.Strands e)
    (hstep : s.consumerStep s.consumer e = some s') : s'.Attended := by
  unfold Activation.consumerStep at hstep
  split at hstep <;> try cases hstep
  next hc => exact h.turn rfl rfl rfl (by simp [hc]) (by simp [hc])
  next hc =>
    obtain ⟨k₀, hpop, rfl⟩ := Option.map_eq_some_iff.mp hstep
    exact h.turn rfl rfl rfl (by simp [hc]) (by simp [hc])
  next k₀ hc => exact h.turn rfl rfl rfl (by simp [hc]) (by simp [hc])
  next k₀ hc =>
    refine h.consumer rfl fun k ha hn => ?_
    change update s.active k₀ false k = false at ha
    by_cases hk : k = k₀
    · subst hk
      by_contra hnone
      refine hok ⟨k, hc, hn, fun p hp => hnone (.inl (.inl ⟨p, hp⟩))⟩
    · rw [update_of_ne hk] at ha
      exact .inr ⟨ha, hn, by simp [hc], by simp [hc]⟩
  next k₀ hc =>
    obtain ⟨-, rfl⟩ := allow_eq_some.mp hstep
    exact h.turn rfl rfl rfl (by simp [hc]) (by simp [hc])
  next k₀ hc => exact h.turn rfl rfl rfl (by simp [hc]) (by simp [hc])
  next k₀ hc =>
    refine h.consumer rfl fun k ha hn => .inr ⟨ha, ?_, by simp [hc], by simp [hc]⟩
    change 0 < update s.pending k₀ (s.pending k₀ - 1) k at hn
    by_cases hk : k = k₀
    · subst hk
      rw [update_self] at hn
      omega
    · rwa [update_of_ne hk] at hn
  next k₀ hc =>
    refine h.consumer rfl fun k ha hn => .inr ⟨ha, ?_, by simp [hc], by simp [hc]⟩
    change 0 < update s.pending k₀ 0 k at hn
    by_cases hk : k = k₀
    · subst hk
      simp at hn
    · rwa [update_of_ne hk] at hn
  next k₀ hc =>
    refine h.consumer rfl fun k ha hn => ?_
    change update s.active k₀ false k = false at ha
    by_cases hk : k = k₀
    · subst hk
      exact .inl (.inr (.inl rfl))
    · rw [update_of_ne hk] at ha
      exact .inr ⟨ha, hn, by simp [hc], by simp [hc]⟩
  next k₀ hc =>
    split_ifs with hpos
    · refine h.consumer rfl fun k ha hn => ?_
      by_cases hk : k = k₀
      · subst hk
        exact .inl (.inr (.inr rfl))
      · exact .inr ⟨ha, hn, by simp [hc, Ne.symm hk], by simp [hc]⟩
    · refine h.consumer rfl fun k ha hn => .inr ⟨ha, hn, ?_, by simp [hc]⟩
      rw [hc]
      rintro ⟨⟩
      exact hpos hn
  next k₀ hc =>
    split_ifs with hactive
    · refine h.consumer rfl fun k ha hn => .inr ⟨ha, hn, by simp [hc], ?_⟩
      rw [hc]
      rintro ⟨⟩
      cases hactive.symm.trans ha
    · refine h.consumer rfl fun k ha hn => ?_
      change update s.active k₀ true k = false at ha
      by_cases hk : k = k₀
      · subst hk
        simp at ha
      · rw [update_of_ne hk] at ha
        exact .inr ⟨ha, hn, by simp [hc], by simp [hc, Ne.symm hk]⟩
  next k₀ hc => exact h.turn rfl rfl rfl (by simp [hc]) (by simp [hc])

/-! ## Runs -/

structure Sound (s : Activation κ) : Prop where
  held : s.Held
  balanced : s.Balanced
  attended : s.Attended

lemma Sound.producerStep (h : s.Sound)
    (hstep : s.producerStep p (s.producers p) e = some s') : s'.Sound :=
  ⟨h.held.producerStep h.balanced.popped_le hstep, h.balanced.producerStep hstep,
    h.attended.producerStep hstep⟩

lemma Sound.consumerStep (h : s.Sound) (hok : ¬s.Strands e)
    (hstep : s.consumerStep s.consumer e = some s') : s'.Sound := by
  have hreset : e = .reset → ∀ k, s.consumer = .resetting k → s.pending k ≤ 0 := by
    rintro rfl k hc
    exact not_lt.mp fun hpos => hok ⟨k, hc, hpos⟩
  exact ⟨h.held.consumerStep h.balanced.popped_le hstep, h.balanced.consumerStep hreset hstep,
    h.attended.consumerStep hok hstep⟩

lemma Sound.step (h : s.Sound) (hok : ¬s.Strands e) (hstep : s.step e = some s') : s'.Sound := by
  cases e with
  | store p k | count p | announce p | activate p | push p => exact h.producerStep hstep
  | _ => exact h.consumerStep hok hstep

lemma sound_start : (activationSystem κ).start.Sound := by
  refine ⟨fun k => ⟨nofun, fun _ h => ?_⟩,
    ⟨le_rfl, fun k => le_rfl, fun k => ?_, fun k => ?_, ?_, ?_⟩,
    fun k _ hn => absurd hn (lt_irrefl _)⟩
  · cases h <;> simp [Holds, activationSystem, token]
  · simp [late, activationSystem, ProducerTurn.Late]
  · simp [late, activationSystem, ProducerTurn.Late, owed]
  · simp [uncounted, activationSystem, ProducerTurn.Uncounted]
  · simp [uncounted, activationSystem, ProducerTurn.Uncounted, ConsumerTurn.uncounted]

/-- The senders on the queue. -/
def waiting (s : Activation κ) : List κ := s.pushed.drop s.popped

/-- Nobody is at work. -/
structure Quiet (s : Activation κ) : Prop where
  producers : ∀ p, s.producers p = .away
  consumer : s.consumer = .away

omit [DecidableEq κ] in
lemma holds_queue_iff (k : κ) (i : ℕ) :
    s.Holds k (.queue (s.popped + i)) ↔ s.waiting[i]? = some k := by
  simp [Holds, waiting]

lemma count_waiting_le (hheld : s.Held) (k : κ) : s.waiting.count k ≤ 1 := by
  by_contra hgt
  obtain ⟨i, j, hij, hi, hj⟩ := List.duplicate_iff_exists_distinct_get.mp
    (List.duplicate_iff_two_le_count.mpr (not_le.mp hgt))
  have hi' : s.Holds k (.queue (s.popped + i)) := by
    rw [holds_queue_iff, hi]
    simp
  have hj' : s.Holds k (.queue (s.popped + j)) := by
    rw [holds_queue_iff, hj]
    simp
  have heq := (hheld k).unique hi' hj'
  simp only [SenderHolder.queue.injEq, add_right_inj] at heq
  exact absurd heq (Nat.ne_of_lt hij)

variable {k : κ}

omit [DecidableEq κ] in
/-- While nobody is at work the senders that are active are on the queue. -/
lemma mem_waiting (hheld : s.Held) (hproducers : ∀ p k, s.producers p ≠ .pushing k)
    (hconsumer : s.consumer.token = none) (hactive : s.active k = true) : k ∈ s.waiting := by
  obtain ⟨h, hh, -⟩ := (hheld k).one hactive
  cases h with
  | queue i =>
    obtain ⟨hle, hi⟩ := hh
    obtain ⟨j, rfl⟩ := Nat.exists_eq_add_of_le hle
    exact List.mem_of_getElem? ((holds_queue_iff k j).mp ⟨hle, hi⟩)
  | producer p => exact absurd hh (hproducers p k)
  | consumer =>
    rw [Holds, hconsumer] at hh
    cases hh

section
variable (hquiet : s.Quiet)
include hquiet

omit [DecidableEq κ] in
lemma Quiet.late_eq (k : κ) : s.late k = ∅ := by
  ext p
  simp [late, hquiet.producers p, ProducerTurn.Late]

lemma Quiet.stored_le (h : s.Balanced) (k : κ) : (s.stored k : ℤ) - s.taken k ≤ s.pending k := by
  have hpending := h.pending_ge k
  rw [hquiet.late_eq, hquiet.consumer] at hpending
  simpa [owed] using hpending

lemma Quiet.active_of_taken_lt (h : s.Sound) (hk : s.taken k < s.stored k) : s.active k = true := by
  by_contra hactive
  have hpos := hquiet.stored_le h.balanced k
  rcases h.attended k (by simpa using hactive) (by omega) with ⟨p, hp⟩ | hc | hc
  · cases (hquiet.producers p).symm.trans hp
  · cases hquiet.consumer.symm.trans hc
  · cases hquiet.consumer.symm.trans hc

/-- A sender with messages is on the queue exactly once. -/
lemma Quiet.count_waiting (h : s.Sound)
    (hk : s.taken k < s.stored k) : s.waiting.count k = 1 := by
  have hmem : k ∈ s.waiting := by
    refine mem_waiting h.held (fun p k' hp => ?_) ?_ (hquiet.active_of_taken_lt h hk)
    · cases (hquiet.producers p).symm.trans hp
    · rw [hquiet.consumer]
      rfl
  have hpos := List.one_le_count_iff.mpr hmem
  have hle := count_waiting_le h.held k
  omega

lemma Quiet.length_eq (h : s.Balanced) : s.length = s.undelivered := by
  have hnone : s.uncounted = ∅ := by
    ext p
    simp [uncounted, hquiet.producers p, ProducerTurn.Uncounted]
  have hlength := h.length_eq
  rw [hnone, hquiet.consumer] at hlength
  simpa [ConsumerTurn.uncounted] using hlength

end
end Activation
end GoAkt.Actor
