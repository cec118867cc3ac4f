import GoAkt.AskReplies

/-!
# Contexts and channels in use

The invariants of the exchange. A context that is held by an Ask or is in a mailbox is at one
place only, and not in the pool. A channel belongs to one Ask from its build until it is
returned. A context that carries the message of an Ask also has its channel, as long as the Ask
has not drained it, and a channel that is not empty holds a reply to the Ask it belongs to.
-/
namespace GoAkt.Actor
open GoAkt.Pools Function List

/-- The place of a context in use. -/
inductive Seat (α ι : Type*)
  | held (a : α)
  | boxed (box : ι × BoxKind)

namespace Exchange
variable {α ι χ κ β : Type*} [DecidableEq α] [DecidableEq ι] [DecidableEq χ] [DecidableEq κ]

/-- Each context in use has one seat. -/
structure Placed (seat : χ → Option (Seat α ι)) (pool : Pool χ)
    (place : α → AskPlace χ κ (β × α)) (boxes : ι × BoxKind → ContextBox χ) : Prop where
  seated : Seated pool seat
  held : ∀ a x, (place a).holds = some x → seat x = some (.held a)
  boxed : ∀ box, ∀ x ∈ (boxes box).contents, seat x = some (.boxed box)
  nodup : ∀ box, (boxes box).contents.Nodup

/-- A context that no Ask holds and no mailbox has, and that is not in the pool. -/
structure Loose (x : χ) (pool : Pool χ) (place : α → AskPlace χ κ (β × α))
    (boxes : ι × BoxKind → ContextBox χ) : Prop where
  not_free : x ∉ pool.free
  made : x ∈ pool.made
  not_held : ∀ a, (place a).holds ≠ some x
  not_boxed : ∀ box, x ∉ (boxes box).contents

variable {seat : χ → Option (Seat α ι)} {callee : α → ι} {pool pool' : Pool χ}
  {context : χ → AskContext α κ} {place : α → AskPlace χ κ (β × α)}
  {boxes : ι × BoxKind → ContextBox χ} {handler : ι → HandlerPlace χ β} {log : List (α × β)}
  {i : ι} {x : χ} {a : α} {p : AskPlace χ κ (β × α)} {c : AskContext α κ}

omit [DecidableEq χ] [DecidableEq κ] in
/-- What an Ask holds after another one has moved to a place without a context. -/
lemma holds_of_update {b : α} (hholds : p.holds = none)
    (hb : (update place a p b).holds = some x) : b ≠ a ∧ (place b).holds = some x := by
  have hba : b ≠ a := by
    rintro rfl
    rw [update_self, hholds] at hb
    cases hb
  rw [update_of_ne hba] at hb
  exact ⟨hba, hb⟩

namespace Placed
section
variable (h : Placed seat pool place boxes)
include h
omit [DecidableEq ι] [DecidableEq κ]

omit [DecidableEq α] in
lemma take (htake : pool.take x = some pool') :
    Placed seat pool' place boxes ∧ Loose x pool' place boxes := by
  obtain ⟨hseated, hnone, hfree, hmade⟩ := h.seated.take htake
  refine ⟨⟨hseated, h.held, h.boxed, h.nodup⟩, hfree, hmade, fun a hheld => ?_, fun box hbox => ?_⟩
  · exact nomatch hnone.symm.trans (h.held a x hheld)
  · exact nomatch hnone.symm.trans (h.boxed box x hbox)

omit [DecidableEq χ] in
lemma goto (hholds : p.holds = none) : Placed seat pool (update place a p) boxes :=
  ⟨h.seated, fun b y hb => h.held b y (holds_of_update hholds hb).2, h.boxed, h.nodup⟩

omit [DecidableEq χ] in
/-- The context of an Ask that goes on to wait is loose until it is enqueued. -/
lemma loose_of_held (hheld : (place a).holds = some x)
    (hholds : p.holds = none) : Loose x pool (update place a p) boxes := by
  have hseat := h.held a x hheld
  have hsome : seat x ≠ none := fun hnone => nomatch hnone.symm.trans hseat
  refine ⟨h.seated.not_free hsome, h.seated.made x hsome, fun b hb => ?_, fun box hbox => ?_⟩
  · obtain ⟨hba, hb⟩ := holds_of_update hholds hb
    have heq : Seat.held b = Seat.held a := Option.some.inj ((h.held b x hb).symm.trans hseat)
    injection heq with heq
    exact hba heq
  · exact nomatch hseat.symm.trans (h.boxed box x hbox)

/-- An Ask takes a loose context. -/
lemma hold (hloose : Loose x pool place boxes) (k : κ) :
    Placed (update seat x (some (.held a))) pool (update place a (.built x k)) boxes := by
  refine ⟨h.seated.occupy hloose.not_free hloose.made _, fun b y hheld => ?_, fun box y hy => ?_,
    h.nodup⟩
  · by_cases hba : b = a
    · rw [hba, update_self] at hheld
      obtain rfl := Option.some.inj hheld
      rw [hba]
      exact update_self ..
    · rw [update_of_ne hba] at hheld
      have hne : y ≠ x := fun heq => hloose.not_held b (heq ▸ hheld)
      rw [update_of_ne hne]
      exact h.held b y hheld
  · have hne : y ≠ x := fun heq => hloose.not_boxed box (heq ▸ hy)
    rw [update_of_ne hne]
    exact h.boxed box y hy

end

omit [DecidableEq ι] [DecidableEq χ] in
lemma contents_append (box : ContextBox χ) (x : χ) :
    ({ box with queue := box.queue ++ [x] } : ContextBox χ).contents = box.contents ++ [x] :=
  (append_assoc ..).symm

omit [DecidableEq α] [DecidableEq κ] in
/-- A mailbox takes a loose context. -/
lemma append (h : Placed seat pool place boxes) (hloose : Loose x pool place boxes)
    (box : ι × BoxKind) :
    Placed (update seat x (some (.boxed box))) pool place
      (update boxes box { boxes box with queue := (boxes box).queue ++ [x] }) := by
  refine ⟨h.seated.occupy hloose.not_free hloose.made _, fun b y hheld => ?_, fun box' y hy => ?_,
    fun box' => ?_⟩
  · have hne : y ≠ x := fun heq => hloose.not_held b (heq ▸ hheld)
    rw [update_of_ne hne]
    exact h.held b y hheld
  · have hkept (hy : y ∈ (boxes box').contents) : update seat x (some (.boxed box)) y = _ :=
      have hne : y ≠ x := fun heq => hloose.not_boxed box' (heq ▸ hy)
      (update_of_ne hne ..).trans (h.boxed box' y hy)
    by_cases hbox : box' = box
    · subst hbox
      rw [update_self, contents_append] at hy
      rcases mem_append.mp hy with hy | hy
      · exact hkept hy
      · rw [mem_singleton.mp hy]
        exact update_self ..
    · rw [update_of_ne hbox] at hy
      exact hkept hy
  · refine (forall_update_iff boxes fun _ b => b.contents.Nodup).mpr
      ⟨?_, fun b _ => h.nodup b⟩ box'
    rw [contents_append]
    exact (h.nodup box).append (nodup_singleton x) (disjoint_singleton.mpr (hloose.not_boxed box))

variable {queue : List χ}

omit [DecidableEq ι] [DecidableEq χ] in
lemma contents_pop {box : ContextBox χ} (hqueue : box.queue = x :: queue) :
    box.contents = box.sentinel.toList ++ (⟨some x, queue⟩ : ContextBox χ).contents := by
  unfold ContextBox.contents
  rw [hqueue]
  rfl

omit [DecidableEq α] [DecidableEq χ] [DecidableEq κ] in
/-- A mailbox without a context dequeued before gives out its first. -/
lemma pop_first (h : Placed seat pool place boxes) {box : ι × BoxKind}
    (hqueue : (boxes box).queue = x :: queue) (hsentinel : (boxes box).sentinel = none) :
    Placed seat pool place (update boxes box ⟨some x, queue⟩) := by
  have hsame : ∀ box', (update boxes box ⟨some x, queue⟩ box').contents =
      (boxes box').contents := fun box' => by
    by_cases hbox : box' = box
    · subst hbox
      rw [update_self, contents_pop hqueue, hsentinel]
      rfl
    · rw [update_of_ne hbox]
  refine ⟨h.seated, h.held, fun box' y hy => ?_, fun box' => ?_⟩
  · exact h.boxed box' y (hsame box' ▸ hy)
  · exact (hsame box').symm ▸ h.nodup box'

omit [DecidableEq α] [DecidableEq κ] in
/-- A mailbox gives out its first context and recycles the one it gave out before. -/
lemma pop_next (h : Placed seat pool place boxes) {box : ι × BoxKind} {y : χ}
    (hqueue : (boxes box).queue = x :: queue) (hsentinel : (boxes box).sentinel = some y)
    (kept : Bool) : Placed (update seat y none) (pool.put y kept) place
      (update boxes box ⟨some x, queue⟩) := by
  have hcontents : (boxes box).contents = y :: (⟨some x, queue⟩ : ContextBox χ).contents := by
    rw [contents_pop hqueue, hsentinel]
    rfl
  have hseat : seat y = some (.boxed box) := h.boxed box y (hcontents ▸ mem_cons_self)
  obtain ⟨hnot, hnodup⟩ := nodup_cons.mp (hcontents ▸ h.nodup box)
  refine ⟨h.seated.put (fun hnone => nomatch hnone.symm.trans hseat) kept, fun a z hheld => ?_,
    fun box' z hz => ?_, fun box' => ?_⟩
  · have hne : z ≠ y := by
      rintro rfl
      exact nomatch hseat.symm.trans (h.held a z hheld)
    rw [update_of_ne hne]
    exact h.held a z hheld
  · by_cases hbox : box' = box
    · subst hbox
      rw [update_self] at hz
      have hne : z ≠ y := fun heq => hnot (heq ▸ hz)
      rw [update_of_ne hne]
      exact h.boxed box' z (hcontents ▸ mem_cons_of_mem y hz)
    · rw [update_of_ne hbox] at hz
      have hne : z ≠ y := by
        rintro rfl
        injection Option.some.inj ((h.boxed box' z hz).symm.trans hseat) with heq
        exact hbox heq
      rw [update_of_ne hne]
      exact h.boxed box' z hz
  · exact (forall_update_iff boxes fun _ b => b.contents.Nodup).mpr
      ⟨hnodup, fun b _ => h.nodup b⟩ box'

end Placed

/-- The Ask can still be reached through the channel, or has drained it. -/
def Reaches (p : AskPlace χ κ (β × α)) (k : κ) : Prop := p.openChannel = some k ∨ p.released = true

/-- A context that carries the message of an Ask has its channel, and no other context has a
channel. -/
structure Letters (context : χ → AskContext α κ) (place : α → AskPlace χ κ (β × α)) : Prop where
  asked : ∀ x a, (context x).message = .ask a →
    ∃ k, (context x).response = some k ∧ Reaches (place a) k
  silent : ∀ x, (∀ a, (context x).message ≠ .ask a) → (context x).response = none

namespace Letters

omit [DecidableEq χ] [DecidableEq κ] in
lemma goto (h : Letters context place) (hreach : ∀ k, Reaches (place a) k → Reaches p k) :
    Letters context (update place a p) := by
  refine ⟨fun x b hb => ?_, h.silent⟩
  obtain ⟨k, hk, hplace⟩ := h.asked x b hb
  refine ⟨k, hk, ?_⟩
  by_cases hba : b = a
  · rw [hba, update_self]
    exact hreach k (hba ▸ hplace)
  · rw [update_of_ne hba]
    exact hplace

omit [DecidableEq α] [DecidableEq κ] in
lemma setContext (h : Letters context place) {x : χ} {c : AskContext α κ}
    (hasked : ∀ a, c.message = .ask a → ∃ k, c.response = some k ∧ Reaches (place a) k)
    (hsilent : (∀ a, c.message ≠ .ask a) → c.response = none) :
    Letters (update context x c) place := by
  refine ⟨fun y b hb => ?_, fun y hy => ?_⟩
  · by_cases hyx : y = x
    · rw [hyx, update_self] at hb ⊢
      exact hasked b hb
    · rw [update_of_ne hyx] at hb ⊢
      exact h.asked y b hb
  · by_cases hyx : y = x
    · rw [hyx, update_self] at hy ⊢
      exact hsilent hy
    · rw [update_of_ne hyx] at hy ⊢
      exact h.silent y hy

end Letters

/-- The message of an Ask is in the mailboxes of one actor only, and in no other context while
the Ask holds the one it has built. -/
structure Located (callee : α → ι) (context : χ → AskContext α κ)
    (boxes : ι × BoxKind → ContextBox χ) (place : α → AskPlace χ κ (β × α)) : Prop where
  boxed : ∀ box, ∀ x ∈ (boxes box).contents, ∀ a, (context x).message = .ask a → callee a = box.1
  held : ∀ a x, (place a).holds = some x → (context x).message = .ask a
  alone : ∀ a x, (place a).holds = some x → ∀ y, (context y).message = .ask a → y = x

namespace Located
section
variable (h : Located callee context boxes place)
include h
omit [DecidableEq κ]

omit [DecidableEq ι] [DecidableEq χ] in
lemma goto (hholds : p.holds = none) : Located callee context boxes (update place a p) :=
  ⟨h.boxed, fun b y hb => h.held b y (holds_of_update hholds hb).2,
    fun b y hb => h.alone b y (holds_of_update hholds hb).2⟩

omit [DecidableEq α] [DecidableEq ι] in
/-- A loose context gets new contents. -/
lemma setContext (hheld : ∀ a, (place a).holds ≠ some x) (hboxed : ∀ box, x ∉ (boxes box).contents)
    (hasked : ∀ a, c.message = .ask a → (place a).holds = none) :
    Located callee (update context x c) boxes place := by
  refine ⟨fun box y hy b hb => ?_, fun b y hy => ?_, fun b y hy z hz => ?_⟩
  · have hne : y ≠ x := fun heq => hboxed box (heq ▸ hy)
    rw [update_of_ne hne] at hb
    exact h.boxed box y hy b hb
  · have hne : y ≠ x := fun heq => hheld b (heq ▸ hy)
    rw [update_of_ne hne]
    exact h.held b y hy
  · by_cases hzx : z = x
    · rw [hzx, update_self] at hz
      exact nomatch (hasked b hz).symm.trans hy
    · rw [update_of_ne hzx] at hz
      exact h.alone b y hy z hz

omit [DecidableEq α] [DecidableEq ι] in
/-- A context in use is marked, or is reset. -/
lemma changeContext (hmessage : c.message = (context x).message ∨
      c.message = .nothing ∧ ∀ a, (place a).holds ≠ some x) :
    Located callee (update context x c) boxes place := by
  have hkeep : ∀ y b, (update context x c y).message = .ask b →
      (context y).message = .ask b := fun y b hb => by
    by_cases hyx : y = x
    · rw [hyx, update_self] at hb
      rcases hmessage with hmessage | ⟨hmessage, -⟩
      · rw [hyx, ← hmessage]
        exact hb
      · exact nomatch hmessage.symm.trans hb
    · rwa [update_of_ne hyx] at hb
  refine ⟨fun box y hy b hb => h.boxed box y hy b (hkeep y b hb), fun b y hy => ?_,
    fun b y hy z hz => h.alone b y hy z (hkeep z b hz)⟩
  by_cases hyx : y = x
  · rcases hmessage with hmessage | ⟨-, hnot⟩
    · rw [hyx, update_self, hmessage]
      exact h.held b x (hyx ▸ hy)
    · exact absurd (hyx ▸ hy) (hnot b)
  · rw [update_of_ne hyx]
    exact h.held b y hy

omit [DecidableEq α] [DecidableEq χ] in
lemma append (box : ι × BoxKind) (hasked : ∀ a, (context x).message = .ask a → callee a = box.1) :
    Located callee context
      (update boxes box { boxes box with queue := (boxes box).queue ++ [x] }) place := by
  refine ⟨fun box' y hy b hb => ?_, h.held, h.alone⟩
  by_cases hbox : box' = box
  · subst hbox
    rw [update_self, Placed.contents_append] at hy
    rcases mem_append.mp hy with hy | hy
    · exact h.boxed box' y hy b hb
    · exact hasked b (mem_singleton.mp hy ▸ hb)
  · rw [update_of_ne hbox] at hy
    exact h.boxed box' y hy b hb

omit [DecidableEq α] [DecidableEq χ] in
lemma pop {box : ι × BoxKind} {queue : List χ} (hqueue : (boxes box).queue = x :: queue) :
    Located callee context (update boxes box ⟨some x, queue⟩) place := by
  refine ⟨fun box' y hy b hb => ?_, h.held, h.alone⟩
  by_cases hbox : box' = box
  · subst hbox
    rw [update_self] at hy
    exact h.boxed box' y (Placed.contents_pop hqueue ▸ mem_append_right _ hy) b hb
  · rw [update_of_ne hbox] at hy
    exact h.boxed box' y hy b hb

end
end Located

/-- What an actor handles is what its mailbox gave out last. -/
structure Handled (handler : ι → HandlerPlace χ β) (boxes : ι × BoxKind → ContextBox χ)
    (context : χ → AskContext α κ) (log : List (α × β)) : Prop where
  current : ∀ i x, (handler i).context = some x →
    ∃ control, (boxes (i, .receiving control)).sentinel = some x
  stashed : ∀ i x z, handler i = .unstashing x z → (boxes (i, .stash)).sentinel = some z
  reply : ∀ i x v, handler i = .responding x v → ∃ a, (context x).message = .ask a ∧ (a, v) ∈ log

namespace Handled

omit [DecidableEq χ] in
lemma mem_contents {box : ContextBox χ} (hsentinel : box.sentinel = some x) : x ∈ box.contents := by
  unfold ContextBox.contents
  rw [hsentinel]
  exact mem_cons_self

section
variable (h : Handled handler boxes context log)
include h
omit [DecidableEq α] [DecidableEq κ]

omit [DecidableEq ι] [DecidableEq χ] in
/-- The context of an actor is in one of its mailboxes. -/
lemma exists_mem (hx : (handler i).context = some x) :
    ∃ control, x ∈ (boxes (i, .receiving control)).contents := by
  obtain ⟨control, hsentinel⟩ := h.current i x hx
  exact ⟨control, mem_contents hsentinel⟩

omit [DecidableEq ι] in
/-- A context keeps its message, or changes while no `Response` is in progress on it. -/
lemma setContext (hc : c.message = (context x).message ∨ ∀ j v, handler j ≠ .responding x v) :
    Handled handler boxes (update context x c) log := by
  refine ⟨h.current, h.stashed, fun j y v hj => ?_⟩
  obtain ⟨a, ha, hlog⟩ := h.reply j y v hj
  refine ⟨a, ?_, hlog⟩
  by_cases hyx : y = x
  · subst hyx
    rcases hc with hc | hnot
    · rw [update_self, hc]
      exact ha
    · exact absurd hj (hnot j v)
  · rw [update_of_ne hyx]
    exact ha

omit [DecidableEq χ] in
lemma append (box : ι × BoxKind) : Handled handler
      (update boxes box { boxes box with queue := (boxes box).queue ++ [x] }) context
      log := by
  have hsentinel : ∀ box', (update boxes box
      { boxes box with queue := (boxes box).queue ++ [x] } box').sentinel =
        (boxes box').sentinel := fun box' => by
    by_cases hbox : box' = box
    · subst hbox
      rw [update_self]
    · rw [update_of_ne hbox]
  refine ⟨fun j y hj => ?_, fun j y z hj => ?_, h.reply⟩
  · obtain ⟨control, hcurrent⟩ := h.current j y hj
    exact ⟨control, (hsentinel _).trans hcurrent⟩
  · exact (hsentinel _).trans (h.stashed j y z hj)

omit [DecidableEq ι] [DecidableEq χ] in
lemma record (entry : α × β) : Handled handler boxes context (log ++ [entry]) := by
  refine ⟨h.current, h.stashed, fun j y v hj => ?_⟩
  obtain ⟨a, ha, hlog⟩ := h.reply j y v hj
  exact ⟨a, ha, mem_append_left _ hlog⟩

omit [DecidableEq χ] in
/-- An actor goes on with what it handles, and its boxes may change. -/
lemma turn {place : HandlerPlace χ β} {boxes' : ι × BoxKind → ContextBox χ}
    (hboxes : ∀ j, j ≠ i → ∀ kind, boxes' (j, kind) = boxes (j, kind))
    (hcurrent : ∀ x, place.context = some x →
      ∃ control, (boxes' (i, .receiving control)).sentinel = some x)
    (hstashed : ∀ x z, place = .unstashing x z → (boxes' (i, .stash)).sentinel = some z)
    (hreply : ∀ x v, place = .responding x v → ∃ a, (context x).message = .ask a ∧ (a, v) ∈ log) :
    Handled (update handler i place) boxes' context log := by
  refine ⟨fun j y hj => ?_, fun j y z hj => ?_, fun j y v hj => ?_⟩
  all_goals
    by_cases hji : j = i
    · subst hji
      rw [update_self] at hj
      solve
      | exact hcurrent y hj
      | exact hstashed y z hj
      | exact hreply y v hj
    · rw [update_of_ne hji] at hj
      try simp only [hboxes j hji]
      solve
      | exact h.current j y hj
      | exact h.stashed j y z hj
      | exact h.reply j y v hj

omit [DecidableEq χ] in
lemma dispatch (control : Bool) (queue : List χ) :
    Handled (update handler i (.handling x))
      (update boxes (i, .receiving control) ⟨some x, queue⟩) context log := by
  refine h.turn (fun j hji kind => update_of_ne (fun heq => hji (congrArg Prod.fst heq)) ..)
    (fun y hy => ⟨control, ?_⟩) nofun nofun
  rw [update_self]
  exact hy

omit [DecidableEq χ] in
lemma unstash {z : χ} (hhandling : handler i = .handling x) (queue : List χ) :
    Handled (update handler i (.unstashing x z))
      (update boxes (i, .stash) ⟨some z, queue⟩) context log := by
  refine h.turn (fun j hji kind => update_of_ne (fun heq => hji (congrArg Prod.fst heq)) ..)
    (fun y hy => ?_) (fun y w hw => ?_) nofun
  · obtain ⟨control, hcurrent⟩ := h.current i y (by rw [hhandling]; exact hy)
    refine ⟨control, ?_⟩
    rw [update_of_ne fun heq => by cases control <;> exact nomatch congrArg Prod.snd heq]
    exact hcurrent
  · cases hw
    rw [update_self]

end
end Handled

/-- The invariant. `seat` gives the seats of the contexts in use and `owner` the Asks that the
channels belong to. -/
structure Sound (callee : α → ι) (seat : χ → Option (Seat α ι)) (owner : κ → Option α)
    (s : Exchange α ι χ κ β) : Prop where
  placed : Placed seat s.contextPool s.place s.boxes
  channels : Seated s.channelPool owner
  owned : ∀ a k, (s.place a).channel = some k → owner k = some a
  letters : Letters s.context s.place
  located : Located callee s.context s.boxes s.place
  clean : ∀ x ∈ s.contextPool.free, (s.context x).message = .nothing
  handled : Handled s.handler s.boxes s.context s.log
  buffers : ∀ k v o, s.buffer k = some (v, o) → (s.place o).openChannel = some k ∧ (o, v) ∈ s.log
  replies : ∀ a v o, (s.place a).reply = some (v, o) → o = a ∧ (a, v) ∈ s.log

end Exchange
end GoAkt.Actor
