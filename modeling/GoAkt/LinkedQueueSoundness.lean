import GoAkt.LinkedQueues
import GoAkt.Neighbours

/-!
# Linked queues stay sound

A node is in the pool, with a producer, in one queue or with a consumer that took it out.
The nodes of a queue are linked in the order of the swaps, up to the gaps of producers
between their two steps, and the values behind the sentinel are what was enqueued and not
returned. Every operation keeps this.
-/
namespace GoAkt.LinkedQueues
open Option Producer GoAkt.Neighbours Function List

/-! ## Where a node is -/

inductive Place (κ π : Type*) where
  | pool
  | producer (p : π)
  | queue (q : κ)
  | consumer (q : κ)
  deriving DecidableEq

/-- The node a producer has and no queue. -/
def Producer.held {κ μ : Type*} : Producer κ μ → Option (Node κ)
  | .acquired v => some v
  | .written v _ => some v
  | .cleared v _ => some v
  | _ => none

/-- The node that was taken out of the queue. -/
def Consumer.held {κ : Type*} : Consumer κ → Option (Node κ)
  | .retiring old _ _ _ => some old
  | _ => none

namespace Memory
variable {κ π μ : Type*}

def At (s : Memory κ π μ) : Place κ π → Node κ → Prop
  | .pool, v => v ∈ s.pool
  | .producer p, v => (s.producers p).held = some v
  | .queue q, v => v ∈ s.chain q
  | .consumer q, v => (s.consumers q).held = some v

/-- No node is at two places, and none is anywhere before it is allocated. -/
structure Owned (s : Memory κ π μ) : Prop where
  unique : ∀ {a b v}, s.At a v → s.At b v → a = b
  born : ∀ {a n}, s.At a (.allocated n) → n < s.allocated
  pool_nodup : s.pool.Nodup
  chain_nodup : ∀ q, (s.chain q).Nodup

/-- The queues from their sentinels to their tails. -/
structure Linked (s : Memory κ π μ) : Prop where
  head_eq : ∀ q, (s.chain q).head? = some (s.head q)
  tail_eq : ∀ q, (s.chain q).getLast? = some (s.tail q)
  tail_next : ∀ q, s.next (s.tail q) = none
  /-- A gap has a producer that is going to close it. -/
  joined : ∀ {q a b}, [a, b] <:+: s.chain q →
    s.next a = some b ∨ ∃ p, s.producers p = .swapped q a b
  gap : ∀ {p q a b}, s.producers p = .swapped q a b → s.next a = none ∧ [a, b] <:+: s.chain q
  gap_unique : ∀ {p p' q q' a b b'}, s.producers p = .swapped q a b →
    s.producers p' = .swapped q' a b' → p = p'
  /-- Only the old sentinel still points into a queue. -/
  target : ∀ {a b}, s.next a = some b →
    (∃ q, [a, b] <:+: s.chain q) ∨ ∃ q c d, s.consumers q = .retiring a b c d
  cleared : ∀ {p v m}, s.producers p = .cleared v m → s.next v = none
  loaded : ∀ {q h}, s.consumers q = .loaded h → h = s.head q
  found : ∀ {q h n}, s.consumers q = .found h n → h = s.head q ∧ s.next h = some n
  retiring : ∀ {q h n a b}, s.consumers q = .retiring h n a b →
    n = s.head q ∧ (b = true → s.next h = none)

/-- The nodes whose values were enqueued and not returned. -/
def unreturned (s : Memory κ π μ) (q : κ) : List (Node κ) :=
  if (s.consumers q).held.isSome then s.chain q else (s.chain q).tail

structure Filled (s : Memory κ π μ) : Prop where
  written : ∀ {p v m}, s.producers p = .written v m → s.value v = some m
  cleared : ∀ {p v m}, s.producers p = .cleared v m → s.value v = some m
  logged : ∀ q, (s.enqueued q).map some = s.returned q ++ (s.unreturned q).map s.value

/-- The node returned last is the sentinel, or the consumer is about to give it back. -/
def Recent (s : Memory κ π μ) : Prop :=
  ∀ q v, s.last q = some v →
    (s.consumers q).held = some v ∨ (s.consumers q).held = none ∧ v = s.head q

structure Sound (s : Memory κ π μ) : Prop where
  owned : s.Owned
  linked : s.Linked
  filled : s.Filled
  recent : s.Recent

section Owned
variable {s s' : Memory κ π μ} {a b : Place κ π} {v w : Node κ}

lemma Owned.ne (h : s.Owned) (hv : s.At a v) (hw : s.At b w) (hab : a ≠ b) : v ≠ w := by
  rintro rfl
  exact hab (h.unique hv hw)

lemma Owned.not_mem_pool (h : s.Owned) (hv : s.At a v) (ha : a ≠ .pool) : v ∉ s.pool :=
  fun hpool => ha (h.unique hv (b := .pool) hpool)

variable {q : κ}

lemma Owned.not_mem_chain (h : s.Owned) (hv : s.At a v) (ha : a ≠ .queue q) : v ∉ s.chain q :=
  fun hchain => ha (h.unique hv (b := .queue q) hchain)

/-- A step that takes nodes nowhere. -/
lemma Owned.same (h : s.Owned) (hat : ∀ a w, s'.At a w → s.At a w)
    (halloc : s'.allocated = s.allocated) (hpool : s'.pool = s.pool)
    (hchain : s'.chain = s.chain) : s'.Owned where
  unique hv hw := h.unique (hat _ _ hv) (hat _ _ hw)
  born hv := by
    rw [halloc]
    exact h.born (hat _ _ hv)
  pool_nodup := hpool ▸ h.pool_nodup
  chain_nodup := hchain ▸ h.chain_nodup

lemma Owned.move (h : s.Owned) (b : Place κ π) (v : Node κ)
    (hat : ∀ a w, s'.At a w → (w = v ∧ a = b) ∨ (s.At a w ∧ w ≠ v))
    (halloc : s.allocated ≤ s'.allocated) (hborn : ∀ n, v = .allocated n → n < s'.allocated)
    (hpool : s'.pool.Nodup) (hchain : ∀ q, (s'.chain q).Nodup) : s'.Owned where
  unique {a a' w} hw hw' := by
    rcases hat a w hw with ⟨rfl, rfl⟩ | ⟨hold, hne⟩
    · rcases hat a' w hw' with ⟨-, rfl⟩ | ⟨-, hne⟩
      · rfl
      · exact absurd rfl hne
    · rcases hat a' w hw' with ⟨rfl, -⟩ | ⟨hold', -⟩
      · exact absurd rfl hne
      · exact h.unique hold hold'
  born {a n} hw := by
    rcases hat a _ hw with ⟨heq, -⟩ | ⟨hold, -⟩
    · exact hborn n heq.symm
    · exact (h.born hold).trans_le halloc
  pool_nodup := hpool
  chain_nodup := hchain

variable [DecidableEq κ]

@[simp] lemma at_setNext (n : Option (Node κ)) : (s.setNext v n).At a w ↔ s.At a w := by
  cases a <;> rfl

@[simp] lemma at_setValue (m : Option μ) : (s.setValue v m).At a w ↔ s.At a w := by
  cases a <;> rfl

@[simp] lemma at_recordReturn (q : κ) : (s.recordReturn q v).At a w ↔ s.At a w := by
  cases a <;> rfl

lemma Owned.setNext (h : s.Owned) (v : Node κ) (n : Option (Node κ)) : (s.setNext v n).Owned :=
  h.same (fun _ _ => (at_setNext n).mp) rfl rfl rfl

lemma Owned.setValue (h : s.Owned) (v : Node κ) (m : Option μ) : (s.setValue v m).Owned :=
  h.same (fun _ _ => (at_setValue m).mp) rfl rfl rfl

variable [DecidableEq π]

@[simp] lemma at_setProducer (p : π) (phase : Producer κ μ) :
    (s.setProducer p phase).At a w ↔
      if a = .producer p then phase.held = some w else s.At a w := by
  cases a with
  | producer p' =>
    by_cases hp : p' = p
    · subst hp
      simp [At, setProducer]
    · simp [At, setProducer, hp]
  | _ => simp [At, setProducer]

@[simp] lemma at_setConsumer (q : κ) (phase : Consumer κ) :
    (s.setConsumer q phase).At a w ↔
      if a = .consumer q then phase.held = some w else s.At a w := by
  cases a with
  | consumer q' =>
    by_cases hq : q' = q
    · subst hq
      simp [At, setConsumer]
    · simp [At, setConsumer, hq]
  | _ => simp [At, setConsumer]

@[simp] lemma at_setPool (pool : List (Node κ)) :
    (s.setPool pool).At a w ↔ if a = .pool then w ∈ pool else s.At a w := by
  cases a <;> simp [At, setPool]

@[simp] lemma at_append (q : κ) (m : μ) :
    (s.append q v m).At a w ↔ if a = .queue q then w ∈ s.chain q ∨ w = v else s.At a w := by
  cases a with
  | queue q' =>
    by_cases hq : q' = q
    · subst hq
      simp [At, append]
    · simp [At, append, hq]
  | _ => simp [At, append]

@[simp] lemma at_advance (q : κ) :
    (s.advance q v).At a w ↔ if a = .queue q then w ∈ (s.chain q).tail else s.At a w := by
  cases a with
  | queue q' =>
    by_cases hq : q' = q
    · subst hq
      simp [At, advance]
    · simp [At, advance, hq]
  | _ => simp [At, advance]

section
variable (h : s.Owned)
include h

lemma Owned.setProducer {p : π} {phase : Producer κ μ}
    (hheld : ∀ w, phase.held = some w → (s.producers p).held = some w) :
    (s.setProducer p phase).Owned := by
  refine h.same (fun a w hw => ?_) rfl rfl rfl
  rw [at_setProducer] at hw
  split_ifs at hw with ha
  · subst ha
    exact hheld w hw
  · exact hw

lemma Owned.setConsumer {phase : Consumer κ}
    (hheld : ∀ w, phase.held = some w → (s.consumers q).held = some w) :
    (s.setConsumer q phase).Owned := by
  refine h.same (fun a w hw => ?_) rfl rfl rfl
  rw [at_setConsumer] at hw
  split_ifs at hw with ha
  · subst ha
    exact hheld w hw
  · exact hw

lemma Owned.allocate (p : π) : ({ s with allocated := s.allocated + 1 }.setProducer p
      (.acquired (.allocated s.allocated))).Owned := by
  refine h.move (.producer p) (.allocated s.allocated) (fun a w hw => ?_) (Nat.le_succ _)
    (fun n hn => ?_) h.pool_nodup h.chain_nodup
  · rw [at_setProducer] at hw
    split_ifs at hw with ha
    · exact .inl ⟨(some.inj hw).symm, ha⟩
    · have hold : s.At a w := by cases a <;> exact hw
      refine .inr ⟨hold, ?_⟩
      rintro rfl
      exact lt_irrefl _ (h.born hold)
  · cases hn
    exact Nat.lt_succ_self _

lemma Owned.take (p : π) {i : ℕ} (hi : s.pool[i]? = some v) :
    ((s.setPool (s.pool.eraseIdx i)).setProducer p (.acquired v)).Owned := by
  obtain ⟨hlt, rfl⟩ := List.getElem?_eq_some_iff.mp hi
  have hpool : s.At .pool (s.pool[i]) := getElem_mem hlt
  have herase : s.pool.eraseIdx i = s.pool.erase (s.pool[i]) :=
    (h.pool_nodup.erase_getElem i hlt).symm
  refine h.move (.producer p) (s.pool[i]) (fun a w hw => ?_) le_rfl (fun n hn => ?_) ?_
    h.chain_nodup
  · rw [at_setProducer, at_setPool, herase, h.pool_nodup.mem_erase_iff] at hw
    split_ifs at hw with ha hb
    · exact .inl ⟨(some.inj hw).symm, ha⟩
    · subst hb
      exact .inr ⟨hw.2, hw.1⟩
    · exact .inr ⟨hw, h.ne hw hpool hb⟩
  · exact h.born (hn ▸ hpool)
  · exact h.pool_nodup.eraseIdx i

lemma Owned.append {p : π} (q : κ) (m : μ) {phase : Producer κ μ}
    (hheld : (s.producers p).held = some v) (hphase : phase.held = none) :
    ((s.append q v m).setProducer p phase).Owned := by
  have hproducer : s.At (.producer p) v := hheld
  refine h.move (.queue q) v (fun a w hw => ?_) le_rfl (fun n hn => ?_) h.pool_nodup (fun q' => ?_)
  · rw [at_setProducer, at_append, hphase] at hw
    split_ifs at hw with ha hb
    · subst hb
      rcases hw with hw | rfl
      · exact .inr ⟨hw, h.ne (a := .queue q) hw hproducer nofun⟩
      · exact .inl ⟨rfl, rfl⟩
    · exact .inr ⟨hw, h.ne hw hproducer ha⟩
  · exact h.born (hn ▸ hproducer)
  · refine (forall_update_iff s.chain fun _ l => l.Nodup).mpr ⟨?_, fun q' _ => h.chain_nodup q'⟩ q'
    rw [← concat_eq_append]
    exact (h.chain_nodup q).concat (h.not_mem_chain hproducer nofun)

lemma Owned.advance {old next : Node κ} {phase : Consumer κ}
    (hhead : (s.chain q).head? = some old) (hphase : phase.held = some old) :
    ((s.advance q next).setConsumer q phase).Owned := by
  obtain ⟨rest, hrest⟩ := List.head?_eq_some_iff.mp hhead
  have hqueue : s.At (.queue q) old := mem_of_head? hhead
  have hnodup := h.chain_nodup q
  rw [hrest, nodup_cons] at hnodup
  refine h.move (.consumer q) old (fun a w hw => ?_) le_rfl (fun n hn => ?_) h.pool_nodup
    (fun q' => ?_)
  · rw [at_setConsumer, at_advance, hphase, hrest, tail_cons] at hw
    split_ifs at hw with ha hb
    · exact .inl ⟨(some.inj hw).symm, ha⟩
    · subst hb
      refine .inr ⟨?_, fun heq => hnodup.1 (heq ▸ hw)⟩
      change w ∈ s.chain q
      rw [hrest]
      exact mem_cons_of_mem old hw
    · exact .inr ⟨hw, h.ne hw hqueue hb⟩
  · exact h.born (hn ▸ hqueue)
  · exact (forall_update_iff s.chain fun _ l => l.Nodup).mpr
      ⟨(h.chain_nodup q).tail, fun q' _ => h.chain_nodup q'⟩ q'

lemma Owned.release {old : Node κ} (keep : Bool) (next : Node κ)
    (hheld : (s.consumers q).held = some old) :
    (((s.setPool (if keep then s.pool ++ [old] else s.pool)).recordReturn q next).setConsumer
      q .idle).Owned := by
  have hconsumer : s.At (.consumer q) old := hheld
  refine h.move .pool old (fun a w hw => ?_) le_rfl (fun n hn => ?_) ?_ h.chain_nodup
  · rw [at_setConsumer, at_recordReturn, at_setPool] at hw
    split_ifs at hw with ha hb hkeep
    · cases hw
    · subst hb
      rcases mem_append.mp hw with hw | hw
      · exact .inr ⟨hw, h.ne (a := .pool) hw hconsumer nofun⟩
      · exact .inl ⟨mem_singleton.mp hw, rfl⟩
    · subst hb
      exact .inr ⟨hw, h.ne (a := .pool) hw hconsumer nofun⟩
    · exact .inr ⟨hw, h.ne hw hconsumer ha⟩
  · exact h.born (hn ▸ hconsumer)
  · change (if keep then s.pool ++ [old] else s.pool).Nodup
    split_ifs
    · rw [← concat_eq_append]
      exact h.pool_nodup.concat (h.not_mem_pool hconsumer nofun)
    · exact h.pool_nodup

end
end Owned

/-! ## The links -/

section Linked
variable {s : Memory κ π μ} {v : Node κ} {q : κ} {p : π}

section
variable (h : s.Linked)
include h

/-- What the links do not depend on. -/
lemma Linked.same {s' : Memory κ π μ} (hnext : s'.next = s.next)
    (hhead : s'.head = s.head) (htail : s'.tail = s.tail) (hchain : s'.chain = s.chain)
    (hproducers : s'.producers = s.producers) (hconsumers : s'.consumers = s.consumers) :
    s'.Linked := by
  obtain ⟨next, value, head, tail, pool, allocated, producers, consumers, chain, _, _, _⟩ := s'
  subst hnext hhead htail hchain hproducers hconsumers
  exact ⟨h.head_eq, h.tail_eq, h.tail_next, h.joined, h.gap, h.gap_unique, h.target,
    h.cleared, h.loaded, h.found, h.retiring⟩

lemma Linked.head_mem (q : κ) : s.head q ∈ s.chain q := mem_of_head? (h.head_eq q)

lemma Linked.tail_mem (q : κ) : s.tail q ∈ s.chain q := mem_of_getLast? (h.tail_eq q)

lemma Linked.exists_next {n : Node κ} (hnext : s.next (s.head q) = some n) :
    [s.head q, n] <:+: s.chain q := by
  by_cases htail : (s.chain q).tail = []
  · -- The sentinel would be the tail, which has no next node.
    obtain ⟨rest, hrest⟩ := List.head?_eq_some_iff.mp (h.head_eq q)
    rw [hrest, tail_cons] at htail
    have hlast := h.tail_eq q
    rw [hrest, htail, List.getLast?_singleton, some.injEq] at hlast
    have hnone := h.tail_next q
    rw [← hlast, hnext] at hnone
    cases hnone
  · obtain ⟨b, hb⟩ := neighbours_of_tail_ne_nil (h.head_eq q) htail
    rcases h.joined hb with hb' | ⟨p, hp⟩
    · rw [hnext, some.injEq] at hb'
      rwa [hb']
    · have hnone := (h.gap hp).1
      rw [hnext] at hnone
      cases hnone

lemma Linked.chain_eq {n : Node κ} (hnext : s.next (s.head q) = some n)
    (hnodup : (s.chain q).Nodup) : ∃ rest, s.chain q = s.head q :: n :: rest := by
  obtain ⟨rest, hrest⟩ := List.head?_eq_some_iff.mp (h.head_eq q)
  obtain ⟨front, back, hsplit⟩ := h.exists_next hnext
  rw [← hsplit] at hnodup
  cases front with
  | nil => exact ⟨back, by simpa using hsplit.symm⟩
  | cons x front =>
    rw [hrest] at hsplit
    have hx : x = s.head q := by simpa using congrArg List.head? hsplit
    rw [hx, cons_append, cons_append, nodup_cons] at hnodup
    exact absurd (by simp) hnodup.1

/-- Nothing follows the tail of a queue, in any queue. -/
lemma Linked.tail_not_left (howned : s.Owned) (q q' : κ) (b : Node κ) :
    ¬[s.tail q, b] <:+: s.chain q' := by
  intro hab
  have hqueue : s.At (.queue q) (s.tail q) := h.tail_mem q
  have hqueue' : s.At (.queue q') (s.tail q) := left_mem_of_neighbours hab
  cases howned.unique hqueue hqueue'
  exact getLast?_ne_of_neighbours (howned.chain_nodup q) hab (h.tail_eq q)

end

variable [DecidableEq κ]

/-- A node that is in no queue loses its link. -/
lemma Linked.unlink (h : s.Linked) (hv : ∀ q, v ∉ s.chain q) : (s.setNext v none).Linked := by
  have hsame : ∀ {q a}, a ∈ s.chain q → (s.setNext v none).next a = s.next a := by
    intro q a ha
    refine s.setNext_of_ne ?_ none
    rintro rfl
    exact hv q ha
  have hnext : ∀ {a b}, (s.setNext v none).next a = some b → s.next a = some b := by
    intro a b hab
    by_cases ha : a = v
    · subst ha
      rw [setNext_self] at hab
      cases hab
    · rwa [s.setNext_of_ne ha] at hab
  have hnone : ∀ {a}, s.next a = none → (s.setNext v none).next a = none := by
    intro a ha
    rw [eq_none_iff_forall_ne_some] at ha ⊢
    exact fun b hb => ha b (hnext hb)
  refine ⟨h.head_eq, h.tail_eq, fun q => ?_, fun hab => ?_, fun hp => ?_, h.gap_unique,
    fun hab => h.target (hnext hab), fun hp => ?_, h.loaded, fun hq => ?_, fun hq => ?_⟩
  · exact (hsame (h.tail_mem q)).trans (h.tail_next q)
  · rw [hsame (left_mem_of_neighbours hab)]
    exact h.joined hab
  · exact ⟨hnone (h.gap hp).1, (h.gap hp).2⟩
  · exact hnone (h.cleared hp)
  · obtain ⟨rfl, hn⟩ := h.found hq
    exact ⟨rfl, (hsame (h.head_mem _)).trans hn⟩
  · obtain ⟨hn, herased⟩ := h.retiring hq
    exact ⟨hn, fun hb => hnone (herased hb)⟩

/-- A consumer goes on with what it has read. -/
lemma Linked.setConsumer (h : s.Linked) {phase : Consumer κ}
    (hloaded : ∀ v, phase = .loaded v → v = s.head q)
    (hfound : ∀ v n, phase = .found v n → v = s.head q ∧ s.next v = some n)
    (hretiring : ∀ v n a b, phase = .retiring v n a b → n = s.head q ∧ (b = true → s.next v = none))
    (htarget : ∀ v n a b, s.consumers q = .retiring v n a b → s.next v = some n →
      ∃ c d, phase = .retiring v n c d) :
    (s.setConsumer q phase).Linked := by
  refine ⟨h.head_eq, h.tail_eq, h.tail_next, h.joined, h.gap, h.gap_unique, fun hab => ?_,
    h.cleared, fun {q' v} hq' => ?_, fun {q' v n} hq' => ?_, fun {q' v n a b} hq' => ?_⟩
  · rcases h.target hab with hchain | ⟨q', c, d, hq'⟩
    · exact .inl hchain
    · refine .inr ⟨q', ?_⟩
      by_cases hq : q' = q
      · subst hq
        simpa using htarget _ _ c d hq' hab
      · exact ⟨c, d, (s.setConsumer_of_ne hq phase).trans hq'⟩
  · rcases consumer_cases hq' with ⟨rfl, heq⟩ | ⟨-, hold⟩
    · exact hloaded v heq
    · exact h.loaded hold
  · rcases consumer_cases hq' with ⟨rfl, heq⟩ | ⟨-, hold⟩
    · exact hfound v n heq
    · exact h.found hold
  · rcases consumer_cases hq' with ⟨rfl, heq⟩ | ⟨-, hold⟩
    · exact hretiring v n a b heq
    · exact h.retiring hold

variable [DecidableEq π]

omit [DecidableEq κ] in
/-- A producer that is not between its swap and its link goes on. -/
lemma Linked.setProducer (h : s.Linked) {phase : Producer κ μ}
    (hold : ∀ q a b, s.producers p ≠ .swapped q a b) (hnew : ∀ q a b, phase ≠ .swapped q a b)
    (hcleared : ∀ v m, phase = .cleared v m → s.next v = none) :
    (s.setProducer p phase).Linked := by
  have hother : ∀ {p' q a b}, (s.setProducer p phase).producers p' = .swapped q a b →
      s.producers p' = .swapped q a b := by
    intro p' q a b hp'
    rcases producer_cases hp' with ⟨-, heq⟩ | ⟨-, hp'⟩
    · exact absurd heq (hnew q a b)
    · exact hp'
  refine ⟨h.head_eq, h.tail_eq, h.tail_next, fun hab => ?_, fun hp => h.gap (hother hp),
    fun hp hp' => h.gap_unique (hother hp) (hother hp'), h.target, fun {p' v m} hp' => ?_,
    h.loaded, h.found, h.retiring⟩
  · rcases h.joined hab with hab | ⟨p', hp'⟩
    · exact .inl hab
    · have hne : p' ≠ p := by
        rintro rfl
        exact hold _ _ _ hp'
      exact .inr ⟨p', (s.setProducer_of_ne hne phase).trans hp'⟩
  · rcases producer_cases hp' with ⟨-, heq⟩ | ⟨-, hp'⟩
    · exact hcleared v m heq
    · exact h.cleared hp'

/-- The tail is swapped: the gap before the new node belongs to the producer. -/
lemma Linked.append (h : s.Linked) (howned : s.Owned) {m : μ}
    (hp : s.producers p = .cleared v m) :
    ((s.append q v m).setProducer p (.swapped q (s.tail q) v)).Linked := by
  have hchain : ∀ q' a b, [a, b] <:+: (s.append q v m).chain q' ↔
      [a, b] <:+: s.chain q' ∨ q' = q ∧ a = s.tail q ∧ b = v := by
    intro q' a b
    by_cases hq : q' = q
    · subst hq
      rw [append_chain_self, neighbours_concat (h.tail_eq q')]
      simp
    · rw [s.append_chain_of_ne hq]
      simp [hq]
  have htail := h.tail_not_left howned q
  refine ⟨fun q' => ?_, fun q' => ?_, fun q' => ?_, fun {q' a b} hab => ?_,
    fun {p' q' a b} hp' => ?_, fun {p₁ p₂ q₁ q₂ a b b'} h₁ h₂ => ?_, fun {a b} hab => ?_,
    fun {p' v' m'} hp' => ?_, h.loaded, h.found, h.retiring⟩
  · change ((s.append q v m).chain q').head? = some (s.head q')
    by_cases hq : q' = q
    · subst hq
      rw [append_chain_self, List.head?_append, h.head_eq q']
      rfl
    · rw [s.append_chain_of_ne hq]
      exact h.head_eq q'
  · change ((s.append q v m).chain q').getLast? = some ((s.append q v m).tail q')
    by_cases hq : q' = q
    · subst hq
      rw [append_chain_self, append_tail_self, List.getLast?_concat]
    · rw [s.append_chain_of_ne hq]
      exact (h.tail_eq q').trans (congrArg some (update_of_ne hq ..).symm)
  · change s.next ((s.append q v m).tail q') = none
    by_cases hq : q' = q
    · subst hq
      rw [append_tail_self]
      exact h.cleared hp
    · refine Eq.trans (congrArg s.next ?_) (h.tail_next q')
      exact update_of_ne hq ..
  · rcases (hchain q' a b).mp hab with hab | ⟨rfl, rfl, rfl⟩
    · rcases h.joined hab with hab | ⟨p', hp'⟩
      · exact .inl hab
      · have hne : p' ≠ p := by
          rintro rfl
          rw [hp] at hp'
          cases hp'
        exact .inr ⟨p', (setProducer_of_ne _ hne _).trans hp'⟩
    · exact .inr ⟨p, setProducer_self ..⟩
  · rcases producer_cases hp' with ⟨-, heq⟩ | ⟨-, hp'⟩
    · cases heq
      exact ⟨h.tail_next q, (hchain q _ _).mpr (.inr ⟨rfl, rfl, rfl⟩)⟩
    · obtain ⟨hnone, hab⟩ := h.gap hp'
      exact ⟨hnone, (hchain q' a b).mpr (.inl hab)⟩
  · rcases producer_cases h₁ with ⟨hp₁, heq₁⟩ | ⟨-, h₁⟩
    · rcases producer_cases h₂ with ⟨hp₂, -⟩ | ⟨-, h₂⟩
      · exact hp₁.trans hp₂.symm
      · cases heq₁
        exact absurd (h.gap h₂).2 (htail q₂ b')
    · rcases producer_cases h₂ with ⟨-, heq₂⟩ | ⟨-, h₂⟩
      · cases heq₂
        exact absurd (h.gap h₁).2 (htail q₁ b)
      · exact h.gap_unique h₁ h₂
  · rcases h.target hab with ⟨q', hab⟩ | hretiring
    · exact .inl ⟨q', (hchain q' a b).mpr (.inl hab)⟩
    · exact .inr hretiring
  · rcases producer_cases hp' with ⟨-, ⟨⟩⟩ | ⟨-, hp'⟩
    exact h.cleared hp'

/-- The producer closes its gap. -/
lemma Linked.link (h : s.Linked) (howned : s.Owned) {pred : Node κ}
    (hp : s.producers p = .swapped q pred v) :
    ((s.setNext pred (some v)).setProducer p .idle).Linked := by
  obtain ⟨hnone, hpair⟩ := h.gap hp
  have hsame : ∀ {a}, a ≠ pred → (s.setNext pred (some v)).next a = s.next a :=
    fun ha => s.setNext_of_ne ha _
  refine ⟨h.head_eq, h.tail_eq, fun q' => ?_, fun {q' a b} hab => ?_, fun {p' q' a b} hp' => ?_,
    fun {p₁ p₂ q₁ q₂ a b b'} h₁ h₂ => ?_, fun {a b} hab => ?_, fun {p' v' m'} hp' => ?_,
    h.loaded, fun {q' x n} hq' => ?_, fun {q' x n c d} hq' => ?_⟩
  · have hne : s.tail q' ≠ pred := by
      intro heq
      exact h.tail_not_left howned q' q v (heq ▸ hpair)
    exact (hsame hne).trans (h.tail_next q')
  · rcases h.joined hab with hnext | ⟨p', hp'⟩
    · have hne : a ≠ pred := by
        rintro rfl
        rw [hnone] at hnext
        cases hnext
      exact .inl ((hsame hne).trans hnext)
    · by_cases hpp : p' = p
      · subst hpp
        rw [hp] at hp'
        cases hp'
        exact .inl (s.setNext_self _ _)
      · exact .inr ⟨p', (setProducer_of_ne _ hpp _).trans hp'⟩
  · rcases producer_cases hp' with ⟨-, ⟨⟩⟩ | ⟨hne, hp'⟩
    have ha : a ≠ pred := by
      rintro rfl
      exact hne (h.gap_unique hp' hp)
    exact ⟨(hsame ha).trans (h.gap hp').1, (h.gap hp').2⟩
  · rcases producer_cases h₁ with ⟨-, ⟨⟩⟩ | ⟨-, h₁⟩
    rcases producer_cases h₂ with ⟨-, ⟨⟩⟩ | ⟨-, h₂⟩
    exact h.gap_unique h₁ h₂
  · by_cases ha : a = pred
    · subst ha
      have hb : some v = some b := (s.setNext_self a _).symm.trans hab
      cases hb
      exact .inl ⟨q, hpair⟩
    · exact h.target ((hsame ha).symm.trans hab)
  · rcases producer_cases hp' with ⟨-, ⟨⟩⟩ | ⟨-, hp'⟩
    have hne : v' ≠ pred :=
      howned.ne (a := .producer p') (b := .queue q) (congrArg held hp')
        (left_mem_of_neighbours hpair) nofun
    exact (hsame hne).trans (h.cleared hp')
  · obtain ⟨hx, hn⟩ := h.found hq'
    have hne : x ≠ pred := by
      rintro rfl
      rw [hnone] at hn
      cases hn
    exact ⟨hx, (hsame hne).trans hn⟩
  · obtain ⟨hn, herased⟩ := h.retiring hq'
    have hne : x ≠ pred :=
      howned.ne (a := .consumer q') (b := .queue q) (congrArg Consumer.held hq')
        (left_mem_of_neighbours hpair) nofun
    exact ⟨hn, fun hd => (hsame hne).trans (herased hd)⟩

omit [DecidableEq π] in
/-- The consumer moves the head. -/
lemma Linked.advance (h : s.Linked) (howned : s.Owned) {old next : Node κ}
    (hq : s.consumers q = .found old next) :
    ((s.advance q next).setConsumer q (.retiring old next false false)).Linked := by
  obtain ⟨rfl, hnext⟩ := h.found hq
  obtain ⟨rest, hrest⟩ := h.chain_eq hnext (howned.chain_nodup q)
  have hchain : ∀ {q' x y}, [x, y] <:+: (s.advance q next).chain q' → [x, y] <:+: s.chain q' := by
    intro q' x y hxy
    by_cases hqq : q' = q
    · subst hqq
      rw [advance_chain_self] at hxy
      exact hxy.trans (tail_suffix _).isInfix
    · rwa [s.advance_chain_of_ne hqq] at hxy
  have hkeep : ∀ {q' x y}, [x, y] <:+: s.chain q' →
      q' = q ∧ x = s.head q ∨ [x, y] <:+: (s.advance q next).chain q' := by
    intro q' x y hxy
    by_cases hqq : q' = q
    · subst hqq
      rw [hrest] at hxy
      rcases neighbours_cons hxy with rfl | hxy
      · exact .inl ⟨rfl, rfl⟩
      · rw [advance_chain_self, hrest]
        exact .inr hxy
    · rw [s.advance_chain_of_ne hqq]
      exact .inr hxy
  refine ⟨fun q' => ?_, fun q' => ?_, h.tail_next, fun hab => h.joined (hchain hab),
    fun {p' q' x y} hp' => ?_, h.gap_unique, fun {x y} hxy => ?_, h.cleared, fun {q' x} hq' => ?_,
    fun {q' x n} hq' => ?_, fun {q' x n c d} hq' => ?_⟩
  · change ((s.advance q next).chain q').head? = some ((s.advance q next).head q')
    by_cases hqq : q' = q
    · subst hqq
      rw [advance_chain_self, advance_head_self, hrest]
      rfl
    · rw [s.advance_chain_of_ne hqq, s.advance_head_of_ne hqq]
      exact h.head_eq q'
  · change ((s.advance q next).chain q').getLast? = some (s.tail q')
    by_cases hqq : q' = q
    · subst hqq
      have hlast := h.tail_eq q'
      rw [hrest] at hlast
      rw [advance_chain_self, hrest]
      simpa using hlast
    · rw [s.advance_chain_of_ne hqq]
      exact h.tail_eq q'
  · obtain ⟨hnone, hxy⟩ := h.gap hp'
    rcases hkeep hxy with ⟨rfl, rfl⟩ | hxy
    · rw [hnext] at hnone
      cases hnone
    · exact ⟨hnone, hxy⟩
  · rcases h.target hxy with ⟨q', hpair⟩ | ⟨q', c, d, hq'⟩
    · rcases hkeep hpair with ⟨rfl, rfl⟩ | hpair
      · -- The old sentinel pointed to the new one.
        cases hnext.symm.trans hxy
        exact .inr ⟨q', false, false, setConsumer_self ..⟩
      · exact .inl ⟨q', hpair⟩
    · have hne : q' ≠ q := by
        rintro rfl
        rw [hq] at hq'
        cases hq'
      exact .inr ⟨q', c, d, (setConsumer_of_ne _ hne _).trans hq'⟩
  · rcases consumer_cases hq' with ⟨-, ⟨⟩⟩ | ⟨hne, hq'⟩
    exact (h.loaded hq').trans (s.advance_head_of_ne hne next).symm
  · rcases consumer_cases hq' with ⟨-, ⟨⟩⟩ | ⟨hne, hq'⟩
    obtain ⟨hx, hn⟩ := h.found hq'
    exact ⟨hx.trans (s.advance_head_of_ne hne next).symm, hn⟩
  · rcases consumer_cases hq' with ⟨rfl, heq⟩ | ⟨hne, hq'⟩
    · cases heq
      exact ⟨(s.advance_head_self q' next).symm, nofun⟩
    · obtain ⟨hn, herased⟩ := h.retiring hq'
      exact ⟨hn.trans (s.advance_head_of_ne hne next).symm, herased⟩

end Linked

/-! ## The values -/

section Filled
variable {s : Memory κ π μ} {v : Node κ} {q : κ} {p : π}

lemma mem_chain_of_mem_unreturned (hv : v ∈ s.unreturned q) : v ∈ s.chain q := by
  unfold unreturned at hv
  split_ifs at hv
  · exact hv
  · exact mem_of_mem_tail hv

/-- What the values do not depend on. -/
lemma Filled.same (h : s.Filled) {s' : Memory κ π μ} (hvalue : s'.value = s.value)
    (hproducers : s'.producers = s.producers) (henqueued : s'.enqueued = s.enqueued)
    (hreturned : s'.returned = s.returned) (hunreturned : ∀ q, s'.unreturned q = s.unreturned q) :
    s'.Filled where
  written hp := by
    rw [hvalue]
    exact h.written (hproducers ▸ hp)
  cleared hp := by
    rw [hvalue]
    exact h.cleared (hproducers ▸ hp)
  logged q := by
    rw [henqueued, hreturned, hunreturned, hvalue]
    exact h.logged q

variable [DecidableEq κ]

lemma Filled.setConsumer (h : s.Filled) {phase : Consumer κ}
    (hheld : phase.held.isSome = (s.consumers q).held.isSome) : (s.setConsumer q phase).Filled := by
  refine h.same rfl rfl rfl rfl fun q' => ?_
  unfold unreturned
  by_cases hq : q' = q
  · subst hq
    rw [setConsumer_self, hheld]
    rfl
  · rw [s.setConsumer_of_ne hq]
    rfl

/-- The value of a node that is in no queue, and that no producer has filled, changes. -/
lemma Filled.setValue (h : s.Filled) {m : Option μ} (hv : ∀ q, v ∉ s.chain q)
    (hwritten : ∀ p m', s.producers p ≠ .written v m')
    (hcleared : ∀ p m', s.producers p ≠ .cleared v m') : (s.setValue v m).Filled where
  written {p w m'} hp := by
    have hne : w ≠ v := by
      rintro rfl
      exact hwritten p m' hp
    exact (update_of_ne hne ..).trans (h.written hp)
  cleared {p w m'} hp := by
    have hne : w ≠ v := by
      rintro rfl
      exact hcleared p m' hp
    exact (update_of_ne hne ..).trans (h.cleared hp)
  logged q := by
    have hmap : (s.unreturned q).map (s.setValue v m).value = (s.unreturned q).map s.value := by
      refine map_congr_left fun w hw => update_of_ne ?_ ..
      rintro rfl
      exact hv q (mem_chain_of_mem_unreturned hw)
    exact (h.logged q).trans (congrArg (s.returned q ++ ·) hmap.symm)

variable [DecidableEq π]

omit [DecidableEq κ] in
lemma Filled.setProducer (h : s.Filled) {phase : Producer κ μ}
    (hwritten : ∀ v m, phase = .written v m → s.value v = some m)
    (hcleared : ∀ v m, phase = .cleared v m → s.value v = some m) :
    (s.setProducer p phase).Filled where
  written hp := by
    rcases producer_cases hp with ⟨-, heq⟩ | ⟨-, hold⟩
    · exact hwritten _ _ heq
    · exact h.written hold
  cleared hp := by
    rcases producer_cases hp with ⟨-, heq⟩ | ⟨-, hold⟩
    · exact hcleared _ _ heq
    · exact h.cleared hold
  logged := h.logged

section
omit [DecidableEq π]

lemma Filled.append (h : s.Filled) (hlinked : s.Linked) {m : μ} (hv : s.value v = some m) :
    (s.append q v m).Filled where
  written hp := h.written hp
  cleared hp := h.cleared hp
  logged q' := by
    change (update s.enqueued q (s.enqueued q ++ [m]) q').map some =
      s.returned q' ++ ((s.append q v m).unreturned q').map s.value
    unfold unreturned
    by_cases hq : q' = q
    · subst hq
      have hlogged := h.logged q'
      have hne : s.chain q' ≠ [] := ne_nil_of_mem (hlinked.head_mem q')
      unfold unreturned at hlogged
      rw [update_self, append_chain_self, map_append, hlogged, tail_append_of_ne_nil hne]
      have hconsumers : (s.append q' v m).consumers = s.consumers := rfl
      rw [hconsumers]
      split_ifs <;> simp [hv]
    · rw [update_of_ne hq, s.append_chain_of_ne hq]
      exact h.logged q'

lemma Filled.advance (h : s.Filled) {old next : Node κ} {a b : Bool}
    (hq : s.consumers q = .found old next) :
    ((s.advance q next).setConsumer q (.retiring old next a b)).Filled := by
  refine h.same rfl rfl rfl rfl fun q' => ?_
  unfold unreturned
  by_cases hqq : q' = q
  · subst hqq
    rw [setConsumer_self, hq]
    exact s.advance_chain_self q' next
  · rw [setConsumer_of_ne _ hqq]
    change (if (s.consumers q').held.isSome then (s.advance q next).chain q'
      else ((s.advance q next).chain q').tail) = _
    rw [s.advance_chain_of_ne hqq]

lemma Filled.release (h : s.Filled) (hlinked : s.Linked) {old next : Node κ} {a b : Bool}
    (pool : List (Node κ)) (hq : s.consumers q = .retiring old next a b) :
    (((s.setPool pool).recordReturn q next).setConsumer q .idle).Filled where
  written hp := h.written hp
  cleared hp := h.cleared hp
  logged q' := by
    change (s.enqueued q').map some = update s.returned q
      (s.returned q ++ [s.value next]) q' ++ (unreturned _ q').map s.value
    unfold unreturned
    by_cases hqq : q' = q
    · subst hqq
      obtain ⟨rest, hrest⟩ := List.head?_eq_some_iff.mp (hlinked.head_eq q')
      have hnext := (hlinked.retiring hq).1
      have hlogged := h.logged q'
      unfold unreturned at hlogged
      rw [hq, hrest, ← hnext] at hlogged
      rw [setConsumer_self, update_self, hlogged]
      change s.returned q' ++ s.value next :: rest.map s.value = _ ++ (s.chain q').tail.map s.value
      simp [hrest]
    · rw [setConsumer_of_ne _ hqq, update_of_ne hqq]
      exact h.logged q'

end
end Filled

section Recent
variable {s : Memory κ π μ} {q : κ} [DecidableEq κ]

lemma Recent.setConsumer (h : s.Recent) {phase : Consumer κ}
    (hheld : phase.held = (s.consumers q).held) : (s.setConsumer q phase).Recent := by
  intro q' v hv
  by_cases hq : q' = q
  · subst hq
    rw [setConsumer_self, hheld]
    exact h q' v hv
  · rw [s.setConsumer_of_ne hq]
    exact h q' v hv

lemma Recent.advance (h : s.Recent) {next : Node κ} {phase : Consumer κ}
    (hold : (s.consumers q).held = none) (hheld : phase.held = some (s.head q)) :
    ((s.advance q next).setConsumer q phase).Recent := by
  intro q' v hv
  by_cases hq : q' = q
  · subst hq
    rcases h q' v hv with hv | ⟨-, rfl⟩
    · rw [hold] at hv
      cases hv
    · rw [setConsumer_self]
      exact .inl hheld
  · rw [setConsumer_of_ne _ hq]
    change _ ∨ _ ∧ v = (s.advance q next).head q'
    rw [s.advance_head_of_ne hq]
    exact h q' v hv

lemma Recent.release (h : s.Recent) (pool : List (Node κ)) :
    (((s.setPool pool).recordReturn q (s.head q)).setConsumer q .idle).Recent := by
  intro q' v hv
  change update s.last q (some (s.head q)) q' = some v at hv
  by_cases hq : q' = q
  · subst hq
    rw [update_self, some.injEq] at hv
    rw [setConsumer_self]
    exact .inr ⟨rfl, hv.symm⟩
  · rw [update_of_ne hq] at hv
    rw [setConsumer_of_ne _ hq]
    exact h q' v hv

end Recent

/-! ## Every operation keeps the queues sound -/

section Sound
variable {s s' : Memory κ π μ} {q : κ} {p : π}

lemma sound_empty (n : ℕ) : (empty n : Memory κ π μ).Sound := by
  refine ⟨⟨fun {a b v} ha hb => ?_, fun {a n'} ha => ?_, ?_, fun q => ?_⟩,
    ⟨fun q => rfl, fun q => rfl, fun q => rfl, fun hab => ?_, nofun, nofun, nofun, nofun, nofun,
      nofun, nofun⟩, ⟨nofun, nofun, fun q => rfl⟩, nofun⟩
  · cases a with
    | pool =>
      obtain ⟨i, -, rfl⟩ := mem_map.mp ha
      cases b with
      | pool => rfl
      | queue q => simp [At, empty] at hb
      | _ => cases hb
    | queue q =>
      have hv : v = .sentinel q := by simpa [At, empty] using ha
      subst hv
      cases b with
      | pool => simp [At, empty] at hb
      | queue q' => simpa [At, empty] using hb
      | _ => cases hb
    | _ => cases ha
  · cases a with
    | pool => simpa [At, empty] using ha
    | queue q => simp [At, empty] at ha
    | _ => cases ha
  · exact nodup_range.map fun i j hij => by injection hij
  · exact nodup_singleton _
  · have hlen := hab.length_le
    simp [empty] at hlen

variable [DecidableEq κ] [DecidableEq π]

section
variable (h : s.Sound)
include h

lemma Sound.acquire {place : Option ℕ} (hop : s.acquire p place = some s') : s'.Sound := by
  obtain ⟨hp, rfl | ⟨i, v, hv, rfl⟩⟩ := acquire_inv hop
  · have hlinked : ({ s with allocated := s.allocated + 1 } : Memory κ π μ).Linked :=
      h.linked.same rfl rfl rfl rfl rfl rfl
    have hfilled : ({ s with allocated := s.allocated + 1 } : Memory κ π μ).Filled :=
      h.filled.same rfl rfl rfl rfl fun _ => rfl
    refine ⟨h.owned.allocate p, hlinked.setProducer (fun q a b heq => ?_) nofun nofun,
      hfilled.setProducer nofun nofun, h.recent⟩
    cases hp.symm.trans heq
  · have hlinked : (s.setPool (s.pool.eraseIdx i)).Linked :=
      h.linked.same rfl rfl rfl rfl rfl rfl
    have hfilled : (s.setPool (s.pool.eraseIdx i)).Filled :=
      h.filled.same rfl rfl rfl rfl fun _ => rfl
    refine ⟨h.owned.take p hv, hlinked.setProducer (fun q a b heq => ?_) nofun nofun,
      hfilled.setProducer nofun nofun, h.recent⟩
    cases hp.symm.trans heq

lemma Sound.write {m : μ} (hop : s.write p m = some s') : s'.Sound := by
  obtain ⟨v, hp, rfl⟩ := write_inv hop
  have hat : s.At (.producer p) v := congrArg held hp
  have hchain : ∀ q, v ∉ s.chain q := fun q => h.owned.not_mem_chain hat nofun
  have hother : ∀ p', (s.producers p').held = some v → p' = p := by
    intro p' hp'
    injection h.owned.unique (a := .producer p') hp' hat
  have hlinked : (s.setValue v (some m)).Linked := h.linked.same rfl rfl rfl rfl rfl rfl
  have hfilled : (s.setValue v (some m)).Filled := by
    refine h.filled.setValue hchain (fun p' m' hp' => ?_) (fun p' m' hp' => ?_)
    · rw [hother p' (congrArg held hp'), hp] at hp'
      cases hp'
    · rw [hother p' (congrArg held hp'), hp] at hp'
      cases hp'
  refine ⟨(h.owned.setValue v _).setProducer (fun w hw => ?_),
    hlinked.setProducer (fun q a b heq => ?_) nofun nofun,
    hfilled.setProducer (fun w m' heq => ?_) nofun, h.recent⟩
  · exact hat.trans hw
  · cases hp.symm.trans heq
  · cases heq
    exact setValue_self ..

lemma Sound.clear (hop : s.clear p = some s') : s'.Sound := by
  obtain ⟨v, m, hp, rfl⟩ := clear_inv hop
  have hat : s.At (.producer p) v := congrArg held hp
  have hfilled : (s.setNext v none).Filled := h.filled.same rfl rfl rfl rfl fun _ => rfl
  have hlinked := h.linked.unlink fun q => h.owned.not_mem_chain hat nofun
  refine ⟨(h.owned.setNext v _).setProducer (fun w hw => ?_),
    hlinked.setProducer (fun q a b heq => ?_) nofun (fun w m' heq => ?_),
    hfilled.setProducer nofun (fun w m' heq => ?_), h.recent⟩
  · exact hat.trans hw
  · cases hp.symm.trans heq
  · cases heq
    exact setNext_self ..
  · cases heq
    exact h.filled.written hp

lemma Sound.swap (hop : s.swap p q = some s') : s'.Sound := by
  obtain ⟨v, m, hp, rfl⟩ := swap_inv hop
  exact ⟨h.owned.append q m (congrArg held hp) rfl, h.linked.append h.owned hp,
    (h.filled.append h.linked (h.filled.cleared hp)).setProducer nofun nofun, h.recent⟩

lemma Sound.link (hop : s.link p = some s') : s'.Sound := by
  obtain ⟨q, pred, v, hp, rfl⟩ := link_inv hop
  have hfilled : (s.setNext pred (some v)).Filled := h.filled.same rfl rfl rfl rfl fun _ => rfl
  exact ⟨(h.owned.setNext pred _).setProducer nofun, h.linked.link h.owned hp,
    hfilled.setProducer nofun nofun, h.recent⟩

lemma Sound.loadHead (hop : s.loadHead q = some s') : s'.Sound := by
  obtain ⟨hq, rfl⟩ := loadHead_inv hop
  refine ⟨h.owned.setConsumer nofun,
    h.linked.setConsumer (fun v heq => ?_) nofun nofun (fun v n a b heq => ?_),
    h.filled.setConsumer (by rw [hq]; rfl), h.recent.setConsumer (by rw [hq]; rfl)⟩
  · cases heq
    rfl
  · cases hq.symm.trans heq

lemma Sound.loadNext (hop : s.loadNext q = some s') : s'.Sound := by
  obtain ⟨head, hq, rfl⟩ := loadNext_inv hop
  cases hnext : s.next head with
  | none =>
    refine ⟨h.owned.setConsumer nofun,
      h.linked.setConsumer nofun nofun nofun (fun v n a b heq => ?_),
      h.filled.setConsumer (by rw [hq]; rfl), h.recent.setConsumer (by rw [hq]; rfl)⟩
    cases hq.symm.trans heq
  | some n =>
    refine ⟨h.owned.setConsumer nofun,
      h.linked.setConsumer nofun (fun v n' heq => ?_) nofun (fun v n a b heq => ?_),
      h.filled.setConsumer (by rw [hq]; rfl), h.recent.setConsumer (by rw [hq]; rfl)⟩
    · cases heq
      exact ⟨h.linked.loaded hq, hnext⟩
    · cases hq.symm.trans heq

lemma Sound.storeHead (hop : s.storeHead q = some s') : s'.Sound := by
  obtain ⟨head, next, hq, rfl⟩ := storeHead_inv hop
  obtain ⟨hold, -⟩ := h.linked.found hq
  have hhead := h.linked.head_eq q
  rw [← hold] at hhead
  exact ⟨h.owned.advance hhead rfl, h.linked.advance h.owned hq, h.filled.advance hq,
    h.recent.advance (by rw [hq]; rfl) (congrArg some hold)⟩

lemma Sound.eraseValue (hop : s.eraseValue q = some s') : s'.Sound := by
  obtain ⟨old, next, a, b, hq, rfl⟩ := eraseValue_inv hop
  have hat : s.At (.consumer q) old := congrArg Consumer.held hq
  have hlinked : (s.setValue old none).Linked := h.linked.same rfl rfl rfl rfl rfl rfl
  have hfilled : (s.setValue old none).Filled := by
    refine h.filled.setValue (fun q' => h.owned.not_mem_chain hat nofun) (fun p m hp => ?_)
      (fun p m hp => ?_)
    · cases h.owned.unique (a := .producer p) (congrArg held hp) hat
    · cases h.owned.unique (a := .producer p) (congrArg held hp) hat
  refine ⟨(h.owned.setValue old _).setConsumer (fun w hw => hat.trans hw),
    hlinked.setConsumer nofun nofun (fun v n c d heq => ?_) (fun v n c d heq _ => ?_),
    hfilled.setConsumer (congrArg (fun c => c.held.isSome) hq.symm),
    h.recent.setConsumer (by rw [hq]; rfl)⟩
  · cases heq
    exact h.linked.retiring hq
  · cases hq.symm.trans heq
    exact ⟨_, _, rfl⟩

lemma Sound.eraseNext (hop : s.eraseNext q = some s') : s'.Sound := by
  obtain ⟨old, next, a, b, hq, rfl⟩ := eraseNext_inv hop
  have hat : s.At (.consumer q) old := congrArg Consumer.held hq
  have hlinked := h.linked.unlink fun q' => h.owned.not_mem_chain hat nofun
  have hfilled : (s.setNext old none).Filled := h.filled.same rfl rfl rfl rfl fun _ => rfl
  refine ⟨(h.owned.setNext old _).setConsumer (fun w hw => hat.trans hw),
    hlinked.setConsumer nofun nofun (fun v n c d heq => ?_) (fun v n c d heq _ => ?_),
    hfilled.setConsumer (congrArg (fun c => c.held.isSome) hq.symm),
    h.recent.setConsumer (by rw [hq]; rfl)⟩
  · cases heq
    exact ⟨(h.linked.retiring hq).1, fun _ => setNext_self ..⟩
  · cases hq.symm.trans heq
    exact ⟨_, _, rfl⟩

lemma Sound.release {keep : Bool} (hop : s.release q keep = some s') : s'.Sound := by
  obtain ⟨old, next, hq, rfl⟩ := release_inv hop
  have hlinked : ((s.setPool (if keep then s.pool ++ [old] else s.pool)).recordReturn q
      next).Linked := h.linked.same rfl rfl rfl rfl rfl rfl
  refine ⟨h.owned.release keep _ (congrArg Consumer.held hq),
    hlinked.setConsumer nofun nofun nofun (fun v n c d heq hnext => ?_),
    h.filled.release h.linked _ hq, ?_⟩
  · -- The old sentinel points nowhere by now.
    cases hq.symm.trans heq
    cases ((h.linked.retiring hq).2 rfl).symm.trans hnext
  · rw [(h.linked.retiring hq).1]
    exact h.recent.release _

end
end Sound

/-! ## What sound queues do -/

section Sound
variable {s : Memory κ π μ}

lemma Sound.returned_isPrefix (h : s.Sound) (q : κ) : s.returned q <+: (s.enqueued q).map some := by
  rw [h.filled.logged q]
  exact prefix_append _ _

lemma Sound.map_waiting (h : s.Sound) (q : κ) :
    (s.waiting q).map some = (s.unreturned q).map s.value := by
  rw [waiting, map_drop, h.filled.logged q, drop_left]

variable {q : κ}

/-- A queue without gaps is linked from its sentinel on. -/
lemma Linked.behind_head (h : s.Linked)
    (hgap : ∀ p a b, s.producers p ≠ .swapped q a b) : s.Behind (s.head q) (s.chain q).tail := by
  have hsuffix : ∀ l v, v :: l <:+ s.chain q → s.Behind v l := by
    intro l
    induction l with
    | nil =>
      rintro v ⟨front, hfront⟩
      have hlast := h.tail_eq q
      rw [← hfront, List.getLast?_concat, some.injEq] at hlast
      rw [Behind, hlast]
      exact h.tail_next q
    | cons w l ih =>
      intro v hv
      have hpair : [v, w] <:+: s.chain q := by
        obtain ⟨front, hfront⟩ := hv
        exact ⟨front, l, by simpa using hfront⟩
      refine ⟨?_, ih w ((suffix_cons v _).trans hv)⟩
      rcases h.joined hpair with hnext | ⟨p, hp⟩
      · exact hnext
      · exact absurd hp (hgap p v w)
  obtain ⟨rest, hrest⟩ := List.head?_eq_some_iff.mp (h.head_eq q)
  refine hsuffix _ _ ?_
  rw [hrest]
  exact suffix_rfl

/-- A consumer that moved the head returns the first value. -/
lemma Sound.waiting_of_retiring (h : s.Sound) {old next : Node κ} {a b : Bool}
    (hq : s.consumers q = .retiring old next a b) :
    ∃ m rest, s.value next = some m ∧ s.waiting q = m :: rest := by
  obtain ⟨rest, hrest⟩ := List.head?_eq_some_iff.mp (h.linked.head_eq q)
  have hmap := h.map_waiting q
  unfold unreturned at hmap
  rw [hq, hrest, ← (h.linked.retiring hq).1] at hmap
  obtain ⟨m, l, hl, hm, -⟩ := map_eq_cons_iff.mp hmap
  exact ⟨m, l, hm.symm, hl⟩

/-- A node in the pool is no part of a queue, and nothing points to it. -/
lemma Sound.pool_apart (h : s.Sound) {v : Node κ} (hv : v ∈ s.pool) (q : κ) :
    v ∉ s.chain q ∧ v ≠ s.head q ∧ v ≠ s.tail q ∧ s.last q ≠ some v ∧ ∀ u, s.next u ≠ some v := by
  have hpool : s.At .pool v := hv
  have hchain : ∀ q, v ∉ s.chain q := fun q => h.owned.not_mem_chain hpool nofun
  refine ⟨hchain q, ?_, ?_, fun hlast => ?_, fun u hu => ?_⟩
  · rintro rfl
    exact hchain q (h.linked.head_mem q)
  · rintro rfl
    exact hchain q (h.linked.tail_mem q)
  · rcases h.recent q v hlast with hheld | ⟨-, rfl⟩
    · cases h.owned.unique (a := .consumer q) hheld hpool
    · exact hchain q (h.linked.head_mem q)
  · rcases h.linked.target hu with ⟨q', hpair⟩ | ⟨q', c, d, hq'⟩
    · exact hchain q' (right_mem_of_neighbours hpair)
    · refine hchain q' ?_
      rw [(h.linked.retiring hq').1]
      exact h.linked.head_mem q'

/-- Without gaps a sentinel has no next node only if the queue is empty. -/
lemma Sound.returned_eq (h : s.Sound) (hgap : ∀ p a b, s.producers p ≠ .swapped q a b)
    (hidle : (s.consumers q).held = none) (hnext : s.next (s.head q) = none) :
    s.returned q = (s.enqueued q).map some := by
  have htail : (s.chain q).tail = [] := by
    by_contra htail
    obtain ⟨b, hb⟩ := neighbours_of_tail_ne_nil (h.linked.head_eq q) htail
    rcases h.linked.joined hb with hb | ⟨p, hp⟩
    · rw [hnext] at hb
      cases hb
    · exact hgap p _ _ hp
  have hlogged := h.filled.logged q
  unfold unreturned at hlogged
  rw [hidle, htail] at hlogged
  simpa using hlogged.symm

end Sound
end Memory
end GoAkt.LinkedQueues
