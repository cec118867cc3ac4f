import GoAkt.AskReplyBooks

/-!
# Replies are not mixed up

Each step of the exchange keeps its invariant, unless a reply is sent through a channel that
its Ask has drained. So an Ask only ever gets what was passed to `Response` for its own
message.
-/
namespace GoAkt.Actor.Exchange
open Exchange Option GoAkt.Interleavings GoAkt.Pools Function List

variable {α ι χ κ β : Type*} [DecidableEq α] [DecidableEq ι] [DecidableEq χ] [DecidableEq κ]
  {callee : α → ι} {seat : χ → Option (Seat α ι)} {owner : κ → Option α}
  {s s' s₁ : Exchange α ι χ κ β} {a : α} {i : ι} {x y z : χ} {k : κ} {v : β}
  {p : AskPlace χ κ (β × α)}

namespace Sound
section
variable (h : Sound callee seat owner s)
include h
omit [DecidableEq κ]

omit [DecidableEq α] [DecidableEq ι] [DecidableEq χ] in
/-- The Ask that a channel belongs to. -/
lemma owner_eq {b : α} (ha : (s.place a).channel = some k)
    (hb : (s.place b).channel = some k) : b = a :=
  some.inj ((h.owned b k hb).symm.trans (h.owned a k ha))

omit [DecidableEq ι] [DecidableEq χ] in
/-- An Ask that has its message on the way goes on. -/
lemma moveOn {old : AskPlace χ κ (β × α)} (buffer : κ → Option (β × α)) (hold : s.place a = old)
    (hholds : p.holds = none) (hchannel : p.channel = old.channel)
    (hreach : ∀ k, Reaches old k → Reaches p k)
    (hsub : ∀ k r, buffer k = some r → s.buffer k = some r)
    (hopen : ∀ k v, buffer k = some (v, a) → old.openChannel = some k → p.openChannel = some k)
    (hreply : ∀ v o, p.reply = some (v, o) → old.reply = some (v, o) ∨ o = a ∧ (a, v) ∈ s.log) :
    Sound callee seat owner ({ s with buffer }.goto a p) := by
  subst hold
  refine ⟨h.placed.goto hholds, h.channels, fun b k hb => ?_, h.letters.goto hreach,
    h.located.goto hholds, h.clean, h.handled, fun k v o hk => ?_, fun b v o hb => ?_⟩
  · by_cases hba : b = a
    · subst hba
      have hb' : (update s.place b p b).channel = some k := hb
      rw [update_self, hchannel] at hb'
      exact h.owned b k hb'
    · have hb' : (update s.place a p b).channel = some k := hb
      rw [update_of_ne hba] at hb'
      exact h.owned b k hb'
  · obtain ⟨hplace, hlog⟩ := h.buffers k v o (hsub k _ hk)
    refine ⟨?_, hlog⟩
    change (update s.place a p o).openChannel = some k
    by_cases hoa : o = a
    · rw [hoa, update_self]
      exact hopen k v (hoa ▸ hk) (hoa ▸ hplace)
    · rw [update_of_ne hoa]
      exact hplace
  · have hb' : (update s.place a p b).reply = some (v, o) := hb
    by_cases hba : b = a
    · subst hba
      rw [update_self] at hb'
      exact (hreply v o hb').elim (h.replies b v o) id
    · rw [update_of_ne hba] at hb'
      exact h.replies b v o hb'

omit [DecidableEq α] [DecidableEq ι] in
lemma close (x : χ) :
    Sound callee seat owner (s.setContext x { s.context x with responseClosed := true }) := by
  have hclean : ∀ y ∈ s.contextPool.free, (update s.context x
      { s.context x with responseClosed := true } y).message = .nothing := fun y hy => by
    by_cases hyx : y = x
    · rw [hyx, update_self]
      exact h.clean x (hyx ▸ hy)
    · rw [update_of_ne hyx]
      exact h.clean y hy
  exact ⟨h.placed, h.channels, h.owned,
    h.letters.setContext (h.letters.asked x) (h.letters.silent x),
    h.located.changeContext (.inl rfl), hclean, h.handled.setContext (.inl rfl), h.buffers,
    h.replies⟩

section
variable (hloose : Loose x s.contextPool s.place s.boxes)
include hloose
omit [DecidableEq α]

omit [DecidableEq ι] in
lemma fill {c : AskContext α κ} (hasked : ∀ a, c.message = .ask a →
      (∃ k, c.response = some k ∧ Reaches (s.place a) k) ∧ (s.place a).holds = none)
    (hsilent : (∀ a, c.message ≠ .ask a) → c.response = none) :
    Sound callee seat owner (s.setContext x c) := by
  have hresponding : ∀ j v, s.handler j ≠ .responding x v := fun j v hj => by
    obtain ⟨control, hmem⟩ := h.handled.exists_mem (congrArg HandlerPlace.context hj)
    exact hloose.not_boxed _ hmem
  have hclean : ∀ y ∈ s.contextPool.free,
      (update s.context x c y).message = .nothing := fun y hy => by
    have hne : y ≠ x := fun heq => hloose.not_free (heq ▸ hy)
    rw [update_of_ne hne]
    exact h.clean y hy
  exact ⟨h.placed, h.channels, h.owned,
    h.letters.setContext (fun b hb => (hasked b hb).1) hsilent,
    h.located.setContext hloose.not_held hloose.not_boxed fun b hb => (hasked b hb).2, hclean,
    h.handled.setContext (.inr hresponding), h.buffers, h.replies⟩

lemma append (box : ι × BoxKind) (hasked : ∀ a, (s.context x).message = .ask a → callee a = box.1) :
    Sound callee (update seat x (some (.boxed box))) owner (s.enqueue box x) :=
  ⟨h.placed.append hloose box, h.channels, h.owned, h.letters, h.located.append box hasked, h.clean,
    h.handled.append box, h.buffers, h.replies⟩

lemma doReceive
    (hasked : ∀ a, (s.context x).message = .ask a → callee a = i) (control accepted : Bool) :
    ∃ seat', Sound callee seat' owner (s.doReceive i x control accepted) := by
  unfold Exchange.doReceive
  split_ifs
  · exact ⟨_, h.append hloose (i, .receiving control) hasked⟩
  · exact ⟨seat, h⟩

end
end

/-- What `getContext` changes. -/
structure Fetched (s s₁ : Exchange α ι χ κ β) (x : χ) : Prop where
  loose : Loose x s₁.contextPool s₁.place s₁.boxes
  message : (s₁.context x).message = .nothing
  context : ∀ y, y ≠ x → s₁.context y = s.context y
  place : s₁.place = s.place
  boxes : s₁.boxes = s.boxes
  handler : s₁.handler = s.handler
  channelPool : s₁.channelPool = s.channelPool

section
variable (h : Sound callee seat owner s)
include h

omit [DecidableEq α] [DecidableEq ι] [DecidableEq κ] in
lemma getContext (hget : s.getContext x = some s₁) :
    Sound callee seat owner s₁ ∧ Fetched s s₁ x := by
  obtain ⟨pool, htake, rfl⟩ := map_eq_some_iff.mp hget
  obtain ⟨hplaced, hloose⟩ := h.placed.take htake
  have hfree : ∀ y ∈ pool.free, y ∈ s.contextPool.free := by
    unfold Pool.take at htake
    split_ifs at htake
    all_goals cases htake
    · exact fun y hy => mem_of_mem_erase hy
    · exact fun y hy => hy
  have hsound : Sound callee seat owner { s with contextPool := pool } :=
    ⟨hplaced, h.channels, h.owned, h.letters, h.located, fun y hy => h.clean y (hfree y hy),
      h.handled, h.buffers, h.replies⟩
  split_ifs with hpooled
  · exact ⟨hsound, hloose, h.clean x hpooled, fun _ _ => rfl, rfl, rfl, rfl, rfl⟩
  · refine ⟨hsound.fill (c := .new) hloose nofun fun _ => rfl, hloose, ?_, fun y hy => ?_, rfl, rfl,
      rfl, rfl⟩
    · exact congrArg AskContext.message (update_self x _ s.context)
    · exact update_of_ne hy _ s.context

omit [DecidableEq ι] in
lemma build (hidle : s.place a = .idle)
    (hloose : Loose x s.contextPool s.place s.boxes) {channels : Pool κ}
    (htake : s.channelPool.take k = some channels) : ∃ seat' owner', Sound callee seat' owner'
      (({ s with channelPool := channels }.setContext x (.build a k)).goto a (.built x k)) := by
  obtain ⟨hchannels, hnone, hfree, hmade⟩ := h.channels.take htake
  -- nothing carries the message of the Ask before
  have hnew : ∀ y, (s.context y).message ≠ .ask a := fun y hy => by
    obtain ⟨k', -, hreach⟩ := h.letters.asked y a hy
    rw [hidle] at hreach
    rcases hreach with hreach | hreach
    · exact nomatch hreach
    · exact nomatch hreach
  have hresponding : ∀ j v, s.handler j ≠ .responding x v := fun j v hj => by
    obtain ⟨control, hmem⟩ := h.handled.exists_mem (congrArg HandlerPlace.context hj)
    exact hloose.not_boxed _ hmem
  have hletters : Letters s.context (update s.place a (.built x k)) :=
    h.letters.goto fun k' hreach => by
      rw [hidle] at hreach
      rcases hreach with hreach | hreach
      · exact nomatch hreach
      · exact nomatch hreach
  refine ⟨_, update owner k (some a), h.placed.hold hloose k,
    hchannels.occupy hfree hmade a, fun b k' hb => ?_, hletters.setContext (fun b hb => ?_)
      (fun hnot => absurd rfl (hnot a)),
    ⟨fun box y hy b hb => ?_, fun b y hb => ?_, fun b y hb w hw => ?_⟩, fun y hy => ?_,
    h.handled.setContext (.inr hresponding), fun k' v o hk' => ?_, fun b v o hb => ?_⟩
  · have hb' : (update s.place a (.built x k) b).channel = some k' := hb
    by_cases hba : b = a
    · rw [hba, update_self] at hb'
      obtain rfl := some.inj hb'
      rw [hba]
      exact update_self ..
    · rw [update_of_ne hba] at hb'
      have hne : k' ≠ k := by
        rintro rfl
        exact nomatch hnone.symm.trans (h.owned b k' hb')
      rw [update_of_ne hne]
      exact h.owned b k' hb'
  · injection hb with hb
    subst hb
    refine ⟨k, rfl, .inl ?_⟩
    rw [update_self]
    rfl
  · have hne : y ≠ x := fun heq => hloose.not_boxed box (heq ▸ hy)
    have hb' : (update s.context x (.build a k) y).message = .ask b := hb
    rw [update_of_ne hne] at hb'
    exact h.located.boxed box y hy b hb'
  · have hb' : (update s.place a (.built x k) b).holds = some y := hb
    change (update s.context x (.build a k) y).message = .ask b
    by_cases hba : b = a
    · rw [hba, update_self] at hb'
      obtain rfl := some.inj hb'
      rw [update_self, hba]
      rfl
    · rw [update_of_ne hba] at hb'
      have hne : y ≠ x := fun heq => hloose.not_held b (heq ▸ hb')
      rw [update_of_ne hne]
      exact h.located.held b y hb'
  · have hb' : (update s.place a (.built x k) b).holds = some y := hb
    have hw' : (update s.context x (.build a k) w).message = .ask b := hw
    by_cases hba : b = a
    · rw [hba, update_self] at hb'
      obtain rfl := some.inj hb'
      refine by_contra fun hwx => ?_
      rw [update_of_ne hwx, hba] at hw'
      exact hnew w hw'
    · rw [update_of_ne hba] at hb'
      refine h.located.alone b y hb' w ?_
      by_cases hwx : w = x
      · rw [hwx, update_self] at hw'
        injection hw' with hab
        exact absurd hab.symm hba
      · rwa [update_of_ne hwx] at hw'
  · have hne : y ≠ x := fun heq => hloose.not_free (heq ▸ hy)
    change (update s.context x (.build a k) y).message = .nothing
    rw [update_of_ne hne]
    exact h.clean y hy
  · obtain ⟨hopen, hlog⟩ := h.buffers k' v o hk'
    refine ⟨?_, hlog⟩
    have hoa : o ≠ a := by
      rintro rfl
      rw [hidle] at hopen
      exact nomatch hopen
    change (update s.place a (.built x k) o).openChannel = some k'
    rw [update_of_ne hoa]
    exact hopen
  · have hb' : (update s.place a (.built x k) b).reply = some (v, o) := hb
    by_cases hba : b = a
    · rw [hba, update_self] at hb'
      exact nomatch hb'
    · rw [update_of_ne hba] at hb'
      exact h.replies b v o hb'

omit [DecidableEq ι] in
lemma ask (hidle : s.place a = .idle) (hget : s.getContext x = some s₁) {channels : Pool κ}
    (htake : s.channelPool.take k = some channels) : ∃ seat' owner', Sound callee seat' owner'
      (({ s₁ with channelPool := channels }.setContext x (.build a k)).goto a (.built x k)) := by
  obtain ⟨hsound, hfetched⟩ := h.getContext hget
  refine hsound.build ?_ hfetched.loose ?_
  · rw [hfetched.place]
    exact hidle
  · rw [hfetched.channelPool]
    exact htake

omit [DecidableEq κ] in
lemma enqueue (hbuilt : s.place a = .built x k) (control accepted : Bool) :
    ∃ seat', Sound callee seat' owner
      ((s.doReceive (callee a) x control accepted).goto a (.waiting x k)) := by
  have hgoto : Sound callee seat owner (s.goto a (.waiting x k)) :=
    h.moveOn s.buffer hbuilt rfl rfl (fun _ => id) (fun _ _ => id) (fun _ _ _ => id) nofun
  have hheld : (s.place a).holds = some x := by rw [hbuilt]; rfl
  have hasked : ∀ b, (s.context x).message = .ask b → callee b = callee a := fun b hb => by
    injection hb.symm.trans (h.located.held a x hheld) with hba
    rw [hba]
  obtain ⟨seat', hreceive⟩ := hgoto.doReceive (h.placed.loose_of_held hheld rfl) hasked control
    accepted
  refine ⟨seat', ?_⟩
  unfold Exchange.doReceive at hreceive ⊢
  split_ifs at hreceive ⊢
  all_goals exact hreceive

omit [DecidableEq ι] [DecidableEq χ] in
lemma receive (hwaiting : s.place a = .waiting x k)
    {reply : β × α} (hbuffer : s.buffer k = some reply) :
    Sound callee seat owner ((s.setBuffer k none).goto a (.selected x k (some reply))) := by
  obtain ⟨v, o⟩ := reply
  obtain ⟨hopen, hlog⟩ := h.buffers k v o hbuffer
  have hoa : o = a := h.owner_eq (by rw [hwaiting]; rfl) (AskPlace.channel_of_open hopen)
  subst hoa
  refine h.moveOn _ hwaiting rfl rfl (fun _ => id) (fun k' r hk => ?_) (fun _ _ _ => id)
    (fun w o' hw => .inr ?_)
  · rw [update_apply] at hk
    split_ifs at hk
    exact hk
  · obtain ⟨rfl, rfl⟩ := Prod.mk.inj (some.inj hw)
    exact ⟨rfl, hlog⟩

variable {reply : Option (β × α)}

omit [DecidableEq ι] [DecidableEq χ] in
lemma drain (hmarked : s.place a = .marked k reply) :
    Sound callee seat owner ((s.setBuffer k none).goto a (.drained k reply)) := by
  refine h.moveOn _ hmarked rfl rfl (fun k' _ => .inr rfl) (fun k' r hk => ?_)
    (fun k' w hk hopen => ?_) fun _ _ => .inl
  · rw [update_apply] at hk
    split_ifs at hk
    exact hk
  · rw [update_apply] at hk
    split_ifs at hk with hne
    exact absurd (some.inj hopen).symm hne

omit [DecidableEq ι] [DecidableEq χ] in
lemma pool (hdrained : s.place a = .drained k reply) (kept : Bool) :
    Sound callee seat (update owner k none)
      ({ s with channelPool := s.channelPool.put k kept }.goto a (.returned reply)) := by
  have howner : owner k = some a := h.owned a k (by rw [hdrained]; rfl)
  refine ⟨h.placed.goto rfl, h.channels.put (fun hnone => nomatch hnone.symm.trans howner) kept,
    fun b k' hb => ?_, h.letters.goto fun _ _ => .inr rfl, h.located.goto rfl, h.clean, h.handled,
    fun k' v o hk => ?_, fun b v o hb => ?_⟩
  · have hb' : (update s.place a (.returned reply) b).channel = some k' := hb
    by_cases hba : b = a
    · rw [hba, update_self] at hb'
      exact nomatch hb'
    · rw [update_of_ne hba] at hb'
      have hne : k' ≠ k := by
        rintro rfl
        exact hba (some.inj ((h.owned b k' hb').symm.trans howner))
      rw [update_of_ne hne]
      exact h.owned b k' hb'
  · obtain ⟨hopen, hlog⟩ := h.buffers k' v o hk
    refine ⟨?_, hlog⟩
    have hoa : o ≠ a := by
      rintro rfl
      rw [hdrained] at hopen
      exact nomatch hopen
    change (update s.place a (.returned reply) o).openChannel = some k'
    rw [update_of_ne hoa]
    exact hopen
  · have hb' : (update s.place a (.returned reply) b).reply = some (v, o) := hb
    by_cases hba : b = a
    · rw [hba, update_self] at hb'
      refine hba ▸ h.replies a v o ?_
      rw [hdrained]
      exact hb'
    · rw [update_of_ne hba] at hb'
      exact h.replies b v o hb'

omit [DecidableEq α] [DecidableEq κ] in
lemma tell (hget : s.getContext x = some s₁) (control accepted : Bool) :
    ∃ seat', Sound callee seat' owner
      ((s₁.setContext x (s₁.context x).buildAsync).doReceive i x control accepted) := by
  obtain ⟨hsound, hfetched⟩ := h.getContext hget
  have hresponse : (s₁.context x).response = none :=
    hsound.letters.silent x fun b hb => nomatch hfetched.message.symm.trans hb
  have hfill : Sound callee seat owner (s₁.setContext x (s₁.context x).buildAsync) :=
    hsound.fill hfetched.loose nofun fun _ => hresponse
  refine hfill.doReceive hfetched.loose (fun b hb => ?_) control accepted
  have hb' : (update s₁.context x (s₁.context x).buildAsync x).message = .ask b := hb
  rw [update_self] at hb'
  exact nomatch hb'

omit [DecidableEq α] [DecidableEq κ] in
/-- A mailbox gives out its next context; `handler` is what the actors do then. -/
lemma dequeue {box : ι × BoxKind} {kept : Bool}
    (hdequeue : s.dequeue box kept = some (x, s₁)) (handler : ι → HandlerPlace χ β)
    (hhandled : ∀ queue, (s.boxes box).queue = x :: queue →
      Handled handler (update s.boxes box ⟨some x, queue⟩) s.context s.log)
    (hidle : ∀ y, (s.boxes box).sentinel = some y → ∀ j v, handler j ≠ .responding y v) :
    ∃ seat', Sound callee seat' owner { s₁ with handler } := by
  unfold Exchange.dequeue at hdequeue
  split at hdequeue
  · exact nomatch hdequeue
  next x' queue hqueue =>
  obtain ⟨rfl, rfl⟩ := Prod.mk.inj (some.inj hdequeue)
  cases hsentinel : (s.boxes box).sentinel with
  | none =>
    exact ⟨seat, h.placed.pop_first hqueue hsentinel, h.channels, h.owned, h.letters,
      h.located.pop hqueue, h.clean, hhandled queue hqueue, h.buffers, h.replies⟩
  | some y =>
    have hmem : y ∈ (s.boxes box).contents := Handled.mem_contents hsentinel
    have hheld : ∀ a, (s.place a).holds ≠ some y := fun a ha =>
      nomatch (h.placed.boxed box y hmem).symm.trans (h.placed.held a y ha)
    refine ⟨_, h.placed.pop_next hqueue hsentinel kept, h.channels, h.owned,
      h.letters.setContext nofun fun _ => rfl,
      (h.located.changeContext (.inr ⟨rfl, hheld⟩)).pop hqueue, fun z hz => ?_,
      (hhandled queue hqueue).setContext (.inr (hidle y hsentinel)), h.buffers, h.replies⟩
    change (update s.context y (s.context y).reset z).message = .nothing
    by_cases hzy : z = y
    · rw [hzy, update_self]
      rfl
    · rw [update_of_ne hzy]
      refine h.clean z ?_
      cases kept with
      | false => exact hz
      | true =>
        rcases mem_append.mp hz with hz | hz
        · exact hz
        · exact absurd (mem_singleton.mp hz) hzy

omit [DecidableEq α] [DecidableEq ι] [DecidableEq χ] [DecidableEq κ] in
/-- The contexts of two mailboxes are different. -/
lemma box_eq {box box' : ι × BoxKind}
    (hmem : x ∈ (s.boxes box).contents) (hmem' : x ∈ (s.boxes box').contents) : box = box' := by
  injection some.inj ((h.placed.boxed box x hmem).symm.trans (h.placed.boxed box' x hmem'))

end

omit [DecidableEq α] [DecidableEq κ] in
lemma dequeue_frame {box : ι × BoxKind} {kept : Bool}
    (hdequeue : s.dequeue box kept = some (x, s₁)) :
    s₁.handler = s.handler ∧ s₁.buffer = s.buffer ∧ s₁.place = s.place ∧ s₁.log = s.log := by
  unfold Exchange.dequeue at hdequeue
  split at hdequeue
  · exact nomatch hdequeue
  · obtain ⟨-, rfl⟩ := Prod.mk.inj (some.inj hdequeue)
    unfold recycle
    split
    all_goals exact ⟨rfl, rfl, rfl, rfl⟩

section
variable (h : Sound callee seat owner s)
include h

variable {kind : BoxKind}
omit [DecidableEq α] [DecidableEq κ]

omit [DecidableEq ι] [DecidableEq χ] in
/-- A `Response` on what a mailbox gave out last is that of its actor. -/
lemma eq_of_responding {j : ι}
    (hsentinel : (s.boxes (i, kind)).sentinel = some y) (hj : s.handler j = .responding y v) :
    j = i := by
  obtain ⟨control, hmem⟩ := h.handled.exists_mem (congrArg HandlerPlace.context hj)
  exact congrArg Prod.fst (h.box_eq hmem (Handled.mem_contents hsentinel))

omit [DecidableEq χ] in
lemma not_responding {place : HandlerPlace χ β}
    (hsentinel : (s.boxes (i, kind)).sentinel = some y) (hplace : ∀ v, place ≠ .responding y v)
    (j : ι) (v : β) : update s.handler i place j ≠ .responding y v := by
  intro hj
  by_cases hji : j = i
  · rw [hji, update_self] at hj
    exact hplace v hj
  · rw [update_of_ne hji] at hj
    exact hji (h.eq_of_responding hsentinel hj)

lemma dispatch {control kept : Bool}
    (hdequeue : s.dequeue (i, .receiving control) kept = some (x, s₁)) :
    ∃ seat', Sound callee seat' owner (s₁.turn i (.handling x)) := by
  unfold turn
  rw [(dequeue_frame hdequeue).1]
  exact h.dequeue hdequeue _ (fun queue _ => h.handled.dispatch control queue)
    fun y hy => h.not_responding hy nofun

lemma unstash (hhandling : s.handler i = .handling x) {kept : Bool}
    (hdequeue : s.dequeue (i, .stash) kept = some (z, s₁)) :
    ∃ seat', Sound callee seat' owner (s₁.turn i (.unstashing x z)) := by
  unfold turn
  rw [(dequeue_frame hdequeue).1]
  exact h.dequeue hdequeue _ (fun queue _ => h.handled.unstash hhandling queue)
    fun y hy => h.not_responding hy nofun

omit [DecidableEq χ] in
/-- An actor goes on with the context that it handles. -/
lemma turn {place : HandlerPlace χ β}
    (hcontext : ∀ y, place.context = some y → (s.handler i).context = some y)
    (hstashed : ∀ x z, place ≠ .unstashing x z) (hreply : ∀ x v, place = .responding x v →
      ∃ a, (s.context x).message = .ask a ∧ (a, v) ∈ s.log) :
    Sound callee seat owner (s.turn i place) :=
  ⟨h.placed, h.channels, h.owned, h.letters, h.located, h.clean,
    h.handled.turn (fun _ _ _ => rfl) (fun y hy => h.handled.current i y (hcontext y hy))
      (fun x z hplace => absurd hplace (hstashed x z)) hreply,
    h.buffers, h.replies⟩

omit [DecidableEq ι] [DecidableEq χ] in
lemma record (x : χ) (v : β) : Sound callee seat owner (s.record x v) := by
  unfold Exchange.record
  split
  next a ha =>
    refine ⟨h.placed, h.channels, h.owned, h.letters, h.located, h.clean, h.handled.record (a, v),
      fun k w o hk => ?_, fun b w o hb => ?_⟩
    · obtain ⟨hopen, hlog⟩ := h.buffers k w o hk
      exact ⟨hopen, mem_append_left _ hlog⟩
    · obtain ⟨hob, hlog⟩ := h.replies b w o hb
      exact ⟨hob, mem_append_left _ hlog⟩
  · exact h

omit [DecidableEq ι] [DecidableEq χ] in
/-- A context with a channel carries the message of an Ask. -/
lemma exists_ask (hresponse : (s.context x).response = some k) :
    ∃ a, (s.context x).message = .ask a := by
  refine by_contra fun hnot => ?_
  exact nomatch (h.letters.silent x (not_exists.mp hnot)).symm.trans hresponse

lemma response (hhandling : s.handler i = .handling x)
    (hresponse : (s.context x).response = some k) :
    Sound callee seat owner (((s.record x v).setContext x
      { s.context x with responseClosed := true }).turn i (.responding x v)) := by
  obtain ⟨a, ha⟩ := h.exists_ask hresponse
  have hrecord : s.record x v = { s with log := s.log ++ [(a, v)] } := by
    unfold Exchange.record
    rw [ha]
  have hclose := (h.record x v).close x
  rw [context_record] at hclose
  refine hclose.turn (fun y hy => ?_) nofun (fun y w hplace => ?_)
  · obtain rfl := some.inj hy
    rw [hrecord]
    exact congrArg HandlerPlace.context hhandling
  · injection hplace with hx hv
    subst hx hv
    refine ⟨a, ?_, ?_⟩
    · change (update (s.record x v).context x _ x).message = .ask a
      rw [update_self]
      exact ha
    · change (a, v) ∈ (s.record x v).log
      rw [hrecord]
      exact mem_append_right _ (mem_singleton.mpr rfl)

omit [DecidableEq ι] [DecidableEq χ] in
/-- A context in a mailbox that carries the message of an Ask. -/
lemma of_boxed {box : ι × BoxKind}
    (hmem : x ∈ (s.boxes box).contents) (ha : (s.context x).message = .ask a) :
    callee a = box.1 ∧ (s.place a).holds = none := by
  refine ⟨h.located.boxed box x hmem a ha, ?_⟩
  cases hholds : (s.place a).holds with
  | none => rfl
  | some y =>
    obtain rfl := h.located.alone a y hholds x ha
    exact nomatch (h.placed.boxed box x hmem).symm.trans (h.placed.held a x hholds)

omit [DecidableEq ι] in
/-- The message of a context in a mailbox moves on in another context. -/
lemma clone (hget : s.getContext y = some s₁) (hmem : z ∈ (s.boxes (i, kind)).contents) :
    Sound callee seat owner (s₁.setContext y ((s₁.context y).cloneContext (s₁.context z))) ∧
      Loose y s₁.contextPool s₁.place s₁.boxes ∧
      ∀ a, ((s₁.setContext y ((s₁.context y).cloneContext (s₁.context z))).context y).message =
        .ask a → callee a = i := by
  obtain ⟨hsound, hfetched⟩ := h.getContext hget
  have hmem' : z ∈ (s₁.boxes (i, kind)).contents := by rw [hfetched.boxes]; exact hmem
  refine ⟨hsound.fill hfetched.loose (fun b hb => ?_) (hsound.letters.silent z), hfetched.loose,
    fun b hb => ?_⟩
  · exact ⟨hsound.letters.asked z b hb, (hsound.of_boxed hmem' hb).2⟩
  · have hb' : (update s₁.context y ((s₁.context y).cloneContext (s₁.context z))
        y).message = .ask b := hb
    rw [update_self] at hb'
    exact (hsound.of_boxed hmem' hb').1

lemma stash (hhandling : s.handler i = .handling x) (hget : s.getContext y = some s₁) :
    ∃ seat', Sound callee seat' owner
      ((s₁.setContext y ((s₁.context y).cloneContext (s₁.context x))).enqueue (i, .stash) y) := by
  obtain ⟨control, hmem⟩ := h.handled.exists_mem (congrArg HandlerPlace.context hhandling)
  obtain ⟨hclone, hloose, hasked⟩ := h.clone hget hmem
  exact ⟨_, hclone.append hloose (i, .stash) hasked⟩

lemma reenter (hunstashing : s.handler i = .unstashing x z)
    (hget : s.getContext y = some s₁) (control accepted : Bool) : ∃ seat', Sound callee seat' owner
      (((s₁.setContext y ((s₁.context y).cloneContext (s₁.context z))).doReceive i y control
        accepted).turn i (.handling x)) := by
  have hmem := Handled.mem_contents (h.handled.stashed i x z hunstashing)
  obtain ⟨hclone, hloose, hasked⟩ := h.clone hget hmem
  obtain ⟨seat', hreceive⟩ := hclone.doReceive hloose hasked control accepted
  refine ⟨seat', hreceive.turn (fun w hw => ?_) nofun nofun⟩
  have hframe : ((s₁.setContext y ((s₁.context y).cloneContext (s₁.context z))).doReceive i y
      control accepted).handler = s.handler := by
    unfold Exchange.doReceive
    rw [← (h.getContext hget).2.handler]
    split_ifs
    all_goals rfl
  rw [hframe, hunstashing]
  exact hw

end

omit [DecidableEq α] [DecidableEq χ] in
/-- A reply is sent to an Ask that has not drained its channel. -/
lemma reply (h : Sound callee seat owner s) (hresponding : s.handler i = .responding x v)
    (ha : (s.context x).message = .ask a) (hresponse : (s.context x).response = some k)
    (hopen : (s.place a).released = false) :
    Sound callee seat owner ((s.turn i (.handling x)).setBuffer k (some (v, a))) := by
  obtain ⟨a', ha', hlog⟩ := h.handled.reply i x v hresponding
  injection ha.symm.trans ha' with haa
  subst haa
  obtain ⟨k', hk', hreach⟩ := h.letters.asked x a ha
  obtain rfl : k' = k := some.inj (hk'.symm.trans hresponse)
  have hchannel : (s.place a).openChannel = some k' :=
    hreach.resolve_right fun hreleased => nomatch hopen.symm.trans hreleased
  have hturn : Sound callee seat owner (s.turn i (.handling x)) :=
    h.turn (fun y hy => (congrArg HandlerPlace.context hresponding).trans hy) nofun nofun
  refine ⟨hturn.placed, hturn.channels, hturn.owned, hturn.letters, hturn.located, hturn.clean,
    hturn.handled, fun k w o hk => ?_, hturn.replies⟩
  have hk'' : update s.buffer k' (some (v, a)) k = some (w, o) := hk
  by_cases hkk : k = k'
  · rw [hkk, update_self] at hk''
    obtain ⟨rfl, rfl⟩ := Prod.mk.inj (some.inj hk'')
    exact ⟨hkk ▸ hchannel, hlog⟩
  · rw [update_of_ne hkk] at hk''
    exact h.buffers k w o hk''

end Sound

/-- The steps that go wrong: an Ask marks its context when that has been recycled and carries
the message of another Ask, which is not closed; a reply is sent when the Ask has drained its
channel. -/
def Mixing (s : Exchange α ι χ κ β) : Event α ι χ κ β → Prop
  | .mark a => ∃ x k reply b, s.place a = .selected x k reply ∧
      (s.context x).message = .ask b ∧ b ≠ a ∧ (s.context x).responseClosed = false
  | .send i => ∃ x v a, s.handler i = .responding x v ∧ (s.context x).message = .ask a ∧
      (s.place a).released = true
  | _ => False

variable {e : Event α ι χ κ β}

lemma Sound.step (h : Sound callee seat owner s)
    (hstep : s.step callee e = some s') (hsafe : ¬s.Mixing e) :
    ∃ seat' owner', Sound callee seat' owner' s' := by
  cases move_of_step hstep with
  | ask hidle hget htake => exact h.ask hidle hget htake
  | enqueue hbuilt control accepted =>
    obtain ⟨seat', hsound⟩ := h.enqueue hbuilt control accepted
    exact ⟨seat', owner, hsound⟩
  | receive hwaiting hbuffer => exact ⟨seat, owner, h.receive hwaiting hbuffer⟩
  | giveUp hwaiting =>
    exact ⟨seat, owner, h.moveOn s.buffer hwaiting rfl rfl (fun _ => id) (fun _ _ => id)
      (fun _ _ _ => id) nofun⟩
  | mark hselected =>
    exact ⟨seat, owner, (h.close _).moveOn s.buffer hselected rfl rfl (fun _ => id) (fun _ _ => id)
      (fun _ _ _ => id) fun _ _ => .inl⟩
  | drain hmarked => exact ⟨seat, owner, h.drain hmarked⟩
  | pool hdrained kept => exact ⟨seat, _, h.pool hdrained kept⟩
  | tell i hget control accepted =>
    obtain ⟨seat', hsound⟩ := h.tell (i := i) hget control accepted
    exact ⟨seat', owner, hsound⟩
  | dispatch _ hdequeue =>
    obtain ⟨seat', hsound⟩ := h.dispatch hdequeue
    exact ⟨seat', owner, hsound⟩
  | noResponse => exact ⟨seat, owner, h⟩
  | tooLate _ _ _ v => exact ⟨seat, owner, h.record _ v⟩
  | respond hhandling hresponse _ v => exact ⟨seat, owner, h.response hhandling hresponse⟩
  | @deliver i x v a k hresponding hasked hresponse =>
    have hopen : (s.place a).released = false :=
      Bool.eq_false_iff.mpr fun hreleased => hsafe ⟨x, v, a, hresponding, hasked, hreleased⟩
    exact ⟨seat, owner, h.reply hresponding hasked hresponse hopen⟩
  | discard hresponding =>
    refine ⟨seat, owner, h.turn (fun y hy => ?_) nofun nofun⟩
    exact (congrArg HandlerPlace.context hresponding).trans hy
  | finish hhandling => exact ⟨seat, owner, h.turn nofun nofun nofun⟩
  | stash hhandling hget =>
    obtain ⟨seat', hsound⟩ := h.stash hhandling hget
    exact ⟨seat', owner, hsound⟩
  | unstash hhandling hdequeue =>
    obtain ⟨seat', hsound⟩ := h.unstash hhandling hdequeue
    exact ⟨seat', owner, hsound⟩
  | reenter hunstashing hget control accepted =>
    obtain ⟨seat', hsound⟩ := h.reenter hunstashing hget control accepted
    exact ⟨seat', owner, hsound⟩

/-- The contexts and channels in use can be told apart. -/
def Consistent (callee : α → ι) (s : Exchange α ι χ κ β) : Prop :=
  ∃ seat owner, Sound callee seat owner s

variable {pool : List χ} {closed : χ → Bool} {events : List (Event α ι χ κ β)}

lemma Consistent.run (hsafe : ¬(system callee pool closed β κ).Took Mixing events)
    (hrun : (system callee pool closed β κ).run events = some s) : Consistent callee s := by
  refine System.safe_invariant ?_ (fun s e s' h hstep hnot => ?_) hsafe hrun
  · refine ⟨fun _ => none, fun _ => none,
      ⟨⟨fun _ _ => rfl, pool.nodup_dedup, nofun, fun _ hx => hx⟩,
      nofun, nofun, fun _ => nodup_nil⟩, ⟨nofun, nodup_nil, nofun, nofun⟩, nofun,
      ⟨nofun, fun _ _ => rfl⟩, ⟨nofun, nofun, nofun⟩, fun _ _ => rfl, ⟨nofun, nofun, nofun⟩, nofun,
      nofun⟩
  · obtain ⟨seat, owner, hsound⟩ := h
    exact hsound.step hstep hnot

/-- The Ask on whose behalf a step is taken: its own steps, and those of `Response` for its
message. -/
def onBehalf (s : Exchange α ι χ κ β) : Event α ι χ κ β → Option α
  | .ask a _ _ | .enqueue a _ _ | .receive a | .giveUp a | .mark a | .drain a | .pool a _ => some a
  | .response i _ | .send i =>
    match (s.handler i).context with
    | some x =>
      match (s.context x).message with
      | .ask a => some a
      | _ => none
    | none => none
  | _ => none

/-- The context that the pool hands out. -/
def Event.taken {α ι χ κ β : Type*} : Event α ι χ κ β → Option χ
  | .ask _ x _ | .tell _ x _ _ | .stash _ x | .reenter _ x _ _ => some x
  | _ => none

omit [DecidableEq α] [DecidableEq ι] [DecidableEq κ] in
/-- A context from the pool is as it was left there, or new. -/
lemma getContext_frame (hget : s.getContext y = some s₁) :
    (∀ x, s₁.context x = s.context x ∨ x = y ∧ s₁.context x = .new) ∧ s₁.buffer = s.buffer ∧
      s₁.place = s.place ∧ s₁.log = s.log := by
  obtain ⟨pool, -, rfl⟩ := map_eq_some_iff.mp hget
  split_ifs
  · exact ⟨fun _ => .inl rfl, rfl, rfl, rfl⟩
  · refine ⟨fun x => ?_, rfl, rfl, rfl⟩
    by_cases hxy : x = y
    · subst hxy
      exact .inr ⟨rfl, update_self ..⟩
    · exact .inl (update_of_ne hxy ..)

omit [DecidableEq α] [DecidableEq χ] [DecidableEq κ] in
lemma doReceive_frame (s : Exchange α ι χ κ β) (i : ι) (y : χ) (control accepted : Bool) :
    (s.doReceive i y control accepted).context = s.context ∧
      (s.doReceive i y control accepted).buffer = s.buffer ∧
      (s.doReceive i y control accepted).place = s.place ∧
      (s.doReceive i y control accepted).log = s.log := by
  unfold doReceive
  split_ifs
  all_goals exact ⟨rfl, rfl, rfl, rfl⟩

omit [DecidableEq α] [DecidableEq ι] [DecidableEq χ] [DecidableEq κ] in
lemma record_frame (s : Exchange α ι χ κ β) (x : χ) (v : β) :
    (s.record x v).buffer = s.buffer ∧ (s.record x v).place = s.place ∧
      s.log <+: (s.record x v).log := by
  unfold record
  split
  · exact ⟨rfl, rfl, prefix_append ..⟩
  · exact ⟨rfl, rfl, prefix_rfl⟩

/-- A context keeps its message or loses it, unless the pool hands the context out, and stays
open. -/
structure Follows (taken : Option χ) (x : χ) (c c' : AskContext α κ) : Prop where
  message : c'.message = c.message ∨ c'.message = .nothing ∨ taken = some x
  isOpen : c.responseClosed = false → c'.responseClosed = false

omit [DecidableEq α] [DecidableEq χ] [DecidableEq κ] in
lemma follows_of_eq {taken : Option χ} {c c' : AskContext α κ} (h : c' = c) :
    Follows taken x c c' := by
  subst h
  exact ⟨.inl rfl, id⟩

omit [DecidableEq α] [DecidableEq ι] [DecidableEq κ] in
lemma follows_getContext (hget : s.getContext y = some s₁) {c : AskContext α κ}
    (hc : (s₁.context y).responseClosed = false → c.responseClosed = false) (x : χ) :
    Follows (some y) x (s.context x) ((s₁.setContext y c).context x) := by
  obtain ⟨hcontext, -⟩ := getContext_frame hget
  change Follows (some y) x (s.context x) (update s₁.context y c x)
  by_cases hxy : x = y
  · subst hxy
    rw [update_self]
    refine ⟨.inr (.inr rfl), fun hopen => hc ?_⟩
    rcases hcontext x with heq | ⟨-, heq⟩
    · exact heq ▸ hopen
    · rw [heq]
      rfl
  · rw [update_of_ne hxy]
    exact follows_of_eq ((hcontext x).resolve_right fun h => hxy h.1)

omit [DecidableEq α] [DecidableEq κ] in
lemma follows_dequeue {box : ι × BoxKind} {kept : Bool}
    (hdequeue : s.dequeue box kept = some (y, s₁)) (x : χ) :
    Follows none x (s.context x) (s₁.context x) := by
  unfold dequeue at hdequeue
  split at hdequeue
  · exact nomatch hdequeue
  · obtain ⟨-, rfl⟩ := Prod.mk.inj (some.inj hdequeue)
    unfold recycle
    split
    · exact follows_of_eq rfl
    next z _ =>
      change Follows none x (s.context x) (update s.context z (s.context z).reset x)
      by_cases hxz : x = z
      · subst hxz
        rw [update_self]
        exact ⟨.inr (.inl rfl), id⟩
      · exact follows_of_eq (update_of_ne hxz ..)

/-- A step that does more to a context is a mark or a `Response`, which keep its message. -/
lemma context_step (hstep : s.step callee e = some s') (x : χ) :
    Follows e.taken x (s.context x) (s'.context x) ∨
      (s'.context x).message = (s.context x).message ∧
        ((∃ a k reply, e = .mark a ∧ s.place a = .selected x k reply) ∨
          ∃ i v, e = .response i v ∧ s.handler i = .handling x) := by
  cases move_of_step hstep with
  | ask _ hget _ => exact .inl (follows_getContext hget (fun _ => rfl) x)
  | enqueue _ control accepted => exact .inl (follows_of_eq (congrFun (doReceive_frame ..).1 x))
  | @mark a y k reply hselected =>
    by_cases hxy : x = y
    · subst hxy
      refine .inr ⟨?_, .inl ⟨a, k, reply, rfl, hselected⟩⟩
      change (update s.context x _ x).message = (s.context x).message
      rw [update_self]
    · exact .inl (follows_of_eq (update_of_ne hxy ..))
  | tell i hget control accepted =>
    rw [(doReceive_frame ..).1]
    refine .inl (follows_getContext hget ?_ x)
    exact id
  | dispatch _ hdequeue | unstash _ hdequeue => exact .inl (follows_dequeue hdequeue x)
  | tooLate => exact .inl (follows_of_eq (congrFun (context_record ..) x))
  | @respond i y k hhandling _ _ v =>
    by_cases hxy : x = y
    · subst hxy
      refine .inr ⟨?_, .inr ⟨i, v, rfl, hhandling⟩⟩
      change (update (s.record x v).context x _ x).message = (s.context x).message
      rw [update_self]
    · exact .inl (follows_of_eq ((update_of_ne hxy ..).trans (congrFun (context_record ..) x)))
  | stash _ hget =>
    refine .inl (follows_getContext hget ?_ x)
    exact id
  | @reenter i _ y z s₁ _ hget control accepted =>
    change Follows _ x _ (((s₁.setContext y _).doReceive i y control accepted).context x) ∨ _
    rw [(doReceive_frame ..).1]
    refine .inl (follows_getContext hget ?_ x)
    exact id
  | receive | giveUp | drain | pool | noResponse | deliver | discard | finish =>
    exact .inl (follows_of_eq rfl)

/-- What a step does to the Asks and the channels: nothing, or an Ask goes on and fills no channel,
or a reply is sent. -/
lemma stores_step (hstep : s.step callee e = some s') :
    (s'.buffer = s.buffer ∧ s'.place = s.place) ∨
      (∃ b place, s'.place = update s.place b place ∧
        (∀ k, s.buffer k = none → s'.buffer k = none) ∧
        ∀ x, place.unmarked = some x →
          (s.place b).unmarked = some x ∨ (s'.context x).message = .ask b) ∨
      (s'.place = s.place ∧ ∃ i x v a k, e = .send i ∧ s.handler i = .responding x v ∧
        (s.context x).message = .ask a ∧ (s.context x).response = some k ∧
        s'.buffer = update s.buffer k (some (v, a))) := by
  have hclear : ∀ k k', s.buffer k' = none → update s.buffer k none k' = none := by
    intro k k' hnone
    rw [update_apply, hnone, ite_self]
  cases move_of_step hstep with
  | @ask b y k s₁ channels hidle hget htake =>
    obtain ⟨-, hbuffer, hplace, -⟩ := getContext_frame hget
    refine .inr (.inl ⟨b, .built y k, congrArg (update · b _) hplace, fun k' hnone => ?_,
      fun x hx => .inr ?_⟩)
    · exact (congrFun hbuffer k').trans hnone
    · obtain rfl : y = x := some.inj hx
      exact congrArg AskContext.message (update_self y _ s₁.context)
  | @enqueue b y k hbuilt control accepted =>
    obtain ⟨-, hbuffer, hplace, -⟩ := doReceive_frame s (callee b) y control accepted
    refine .inr (.inl ⟨b, .waiting y k, congrArg (update · b _) hplace, fun k' hnone => ?_,
      fun x hx => .inl ((congrArg AskPlace.unmarked hbuilt).trans hx)⟩)
    exact (congrFun hbuffer k').trans hnone
  | receive hwaiting =>
    exact .inr (.inl ⟨_, _, rfl, hclear _, fun x hx =>
      .inl ((congrArg AskPlace.unmarked hwaiting).trans hx)⟩)
  | giveUp hwaiting =>
    exact .inr (.inl ⟨_, _, rfl, fun _ => id, fun x hx =>
      .inl ((congrArg AskPlace.unmarked hwaiting).trans hx)⟩)
  | drain => exact .inr (.inl ⟨_, _, rfl, hclear _, nofun⟩)
  | mark | pool => exact .inr (.inl ⟨_, _, rfl, fun _ => id, nofun⟩)
  | tell i hget control accepted | @reenter i _ _ _ _ _ hget control accepted =>
    obtain ⟨-, hbuffer, hplace, -⟩ := getContext_frame hget
    obtain ⟨-, hbuffer', hplace', -⟩ := doReceive_frame _ i _ control accepted
    exact .inl ⟨hbuffer'.trans hbuffer, hplace'.trans hplace⟩
  | dispatch _ hdequeue | unstash _ hdequeue =>
    obtain ⟨-, hbuffer, hplace, -⟩ := Sound.dequeue_frame hdequeue
    exact .inl ⟨hbuffer, hplace⟩
  | stash _ hget =>
    obtain ⟨-, hbuffer, hplace, -⟩ := getContext_frame hget
    exact .inl ⟨hbuffer, hplace⟩
  | tooLate | respond =>
    obtain ⟨hbuffer, hplace, -⟩ := record_frame s _ _
    exact .inl ⟨hbuffer, hplace⟩
  | deliver hresponding hasked hresponse =>
    exact .inr (.inr ⟨rfl, _, _, _, _, _, rfl, hresponding, hasked, hresponse, rfl⟩)
  | noResponse | discard | finish => exact .inl ⟨rfl, rfl⟩

/-- Only a send fills a channel. -/
lemma buffer_step {r : β × α} (hstep : s.step callee e = some s')
    (hempty : s.buffer k = none) (hfull : s'.buffer k = some r) :
    ∃ i x v a, e = .send i ∧ s.handler i = .responding x v ∧ (s.context x).message = .ask a ∧
      (s.context x).response = some k ∧ r = (v, a) := by
  rcases stores_step hstep with ⟨hbuffer, -⟩ | ⟨-, -, -, hnone, -⟩ |
    ⟨-, i, x, v, a, k', he, hi, ha, hk', hbuffer⟩
  · rw [hbuffer, hempty] at hfull
    cases hfull
  · rw [hnone k hempty] at hfull
    cases hfull
  · rw [hbuffer, update_apply] at hfull
    split_ifs at hfull with hkk
    · subst hkk
      exact ⟨i, x, v, a, he, hi, ha, hk', (some.inj hfull).symm⟩
    · rw [hempty] at hfull
      cases hfull

/-! ## Where late marks come from -/

/-- A context is recycled and handed out again that an Ask has yet to mark. -/
def Reissues (s : Exchange α ι χ κ β) (e : Event α ι χ κ β) : Prop :=
  ∃ x a, e.taken = some x ∧ (s.place a).unmarked = some x

/-- An Ask that has a context to mark had it before, or has just put its message into it. -/
lemma unmarked_step {a : α} (hstep : s.step callee e = some s')
    (hunmarked : (s'.place a).unmarked = some x) :
    (s.place a).unmarked = some x ∨ (s'.context x).message = .ask a := by
  rcases stores_step hstep with ⟨-, hplace⟩ | ⟨b, place, hplace, -, hx⟩ | ⟨hplace, -⟩
  · exact .inl (hplace ▸ hunmarked)
  · rw [hplace, update_apply] at hunmarked
    split_ifs at hunmarked with hab
    · subst hab
      exact hx x hunmarked
    · exact .inl hunmarked
  · exact .inl (hplace ▸ hunmarked)

/-- The context that an Ask has yet to mark carries no message of another Ask. -/
def Undisturbed (s : Exchange α ι χ κ β) : Prop :=
  ∀ a x, (s.place a).unmarked = some x → ∀ b, b ≠ a → (s.context x).message ≠ .ask b

lemma Undisturbed.step (h : s.Undisturbed) (hstep : s.step callee e = some s')
    (hnot : ¬s.Reissues e) : s'.Undisturbed := by
  intro a x hunmarked b hba
  rcases unmarked_step hstep hunmarked with hbefore | hbuilt
  · have hother := h a x hbefore b hba
    rcases context_step hstep x with hfollows | ⟨hmessage, -⟩
    · rcases hfollows.message with hmessage | hmessage | htaken
      · exact hmessage ▸ hother
      · rw [hmessage]
        exact nofun
      · exact absurd ⟨x, a, htaken, hbefore⟩ hnot
    · exact hmessage ▸ hother
  · rw [hbuilt]
    exact fun heq => hba (Carried.ask.inj heq).symm

/-- If no context is handed out again that an Ask has yet to mark, no mark closes the context of
another Ask. -/
theorem not_mixing_mark (hsafe : ¬(system callee pool closed β κ).Took Reissues events)
    (hrun : (system callee pool closed β κ).run events = some s) (a : α) :
    ¬s.Mixing (.mark a) := by
  have hown : s.Undisturbed := System.safe_invariant nofun (fun _ _ _ h => h.step) hsafe hrun
  rintro ⟨x, k, reply, b, hselected, hb, hba, -⟩
  exact hown a x (congrArg AskPlace.unmarked hselected) b hba hb

/-- In every run without a mixing step, an Ask that has a reply has one that was passed to
`Response` while its own message was handled, and no step for one Ask closes the context or
fills the channel of another. -/
theorem ask_replies_not_mixed
    (hsafe : ¬(system callee pool closed β κ).Took Mixing events)
    (hrun : (system callee pool closed β κ).run events = some s) :
    (∀ a v o, (s.place a).reply = some (v, o) → o = a ∧ (a, v) ∈ s.log) ∧
      ∀ e s', s.step callee e = some s' → ¬s.Mixing e → ∀ b,
        (∀ x, (s.context x).message = .ask b → (s.context x).responseClosed = false →
          (s'.context x).responseClosed = true → s.onBehalf e = some b) ∧
        ∀ k v o, (s.place b).openChannel = some k → s.buffer k = none →
          s'.buffer k = some (v, o) → o = b ∧ s.onBehalf e = some b := by
  obtain ⟨seat, owner, hsound⟩ := Consistent.run hsafe hrun
  refine ⟨hsound.replies, fun e s' hstep hnot b => ⟨fun x hb hopen hclosed => ?_,
    fun k v o hk hempty hfull => ?_⟩⟩
  · rcases context_step hstep x with hfollows | ⟨-, ⟨a, k, reply, rfl, hselected⟩ | ⟨i, v, rfl, hi⟩⟩
    · exact absurd hclosed (Bool.eq_false_iff.mp (hfollows.isOpen hopen))
    · refine congrArg some (by_contra fun hab => hnot ?_)
      exact ⟨x, k, reply, b, hselected, hb, Ne.symm hab, hopen⟩
    · dsimp only [onBehalf]
      rw [hi]
      dsimp only [HandlerPlace.context]
      rw [hb]
  · obtain ⟨i, x, w, a, rfl, hi, ha, hresponse, hr⟩ := buffer_step hstep hempty hfull
    obtain ⟨rfl, rfl⟩ := Prod.mk.inj hr
    obtain ⟨k', hk', hreach⟩ := hsound.letters.asked x o ha
    obtain rfl : k' = k := some.inj (hk'.symm.trans hresponse)
    have hopen : (s.place o).openChannel = some k' :=
      hreach.resolve_right fun hreleased => hnot ⟨x, v, o, hi, ha, hreleased⟩
    obtain rfl : o = b :=
      hsound.owner_eq (AskPlace.channel_of_open hk) (AskPlace.channel_of_open hopen)
    refine ⟨rfl, ?_⟩
    dsimp only [onBehalf]
    rw [hi]
    dsimp only [HandlerPlace.context]
    rw [ha]

/-- A test that no mixing step passes. -/
def unmixed (s : Exchange α ι χ κ β) : Event α ι χ κ β → Bool
  | .mark a =>
    match s.place a with
    | .selected x _ _ =>
      match (s.context x).message with
      | .ask b => decide (b = a)
      | _ => true
    | _ => true
  | .send i =>
    match s.handler i with
    | .responding x _ =>
      match (s.context x).message with
      | .ask a => !(s.place a).released
      | _ => true
    | _ => true
  | _ => true

omit [DecidableEq ι] [DecidableEq χ] [DecidableEq κ] in
lemma not_mixing_of_unmixed (s : Exchange α ι χ κ β) (e : Event α ι χ κ β)
    (htest : s.unmixed e = true) : ¬s.Mixing e := by
  cases e with
  | mark a =>
    rintro ⟨x, k, reply, b, hselected, hb, hba, -⟩
    dsimp only [unmixed] at htest
    rw [hselected] at htest
    dsimp only at htest
    rw [hb] at htest
    exact hba (of_decide_eq_true htest)
  | send i =>
    rintro ⟨x, v, a, hresponding, ha, hreleased⟩
    dsimp only [unmixed] at htest
    rw [hresponding] at htest
    dsimp only at htest
    rw [ha] at htest
    dsimp only at htest
    rw [hreleased] at htest
    exact nomatch htest
  | _ => exact not_false

/-- Two Asks of one actor, with the same context and the same channel one after the other. -/
def answerTwo : List (Event ℕ ℕ ℕ ℕ ℕ) :=
  [.ask 0 0 0, .enqueue 0 false true, .dispatch 0 false true, .response 0 40, .send 0, .receive 0,
    .mark 0, .drain 0, .pool 0 true, .finish 0, .tell 0 1 false true, .dispatch 0 false true,
    .finish 0, .ask 1 0 0, .enqueue 1 false true, .dispatch 0 false true, .response 0 41, .send 0,
    .receive 1]

theorem ask_replies_not_mixed_answerTwo :
    ∃ s, (system (fun _ => 0) [] (fun _ => false) ℕ ℕ).run answerTwo = some s ∧
      (s.place 0).reply = some (40, 0) ∧ (s.place 1).reply = some (41, 1) ∧
      (0, 40) ∈ s.log ∧ (1, 41) ∈ s.log := by
  obtain ⟨s, hrun, hsafe, hzero, hone⟩ := System.exists_safe_run
    (system (fun _ => 0) [] (fun _ => false) ℕ ℕ) answerTwo
    (fun s => (s.place 0).reply = some (40, 0) ∧ (s.place 1).reply = some (41, 1))
    not_mixing_of_unmixed (by decide +kernel)
  obtain ⟨hreplies, -⟩ := ask_replies_not_mixed hsafe hrun
  exact ⟨s, hrun, hzero, hone, (hreplies 0 40 0 hzero).2, (hreplies 1 41 1 hone).2⟩

/-- The first Ask has its reply and has not marked its context yet. The mailbox recycles the
context, and the second Ask gets it. -/
def beforeLateMark : List (Event ℕ ℕ ℕ ℕ ℕ) :=
  [.ask 0 0 0, .enqueue 0 false true, .dispatch 0 false true, .response 0 40, .send 0, .receive 0,
    .finish 0, .tell 0 1 false true, .dispatch 0 false true, .finish 0, .ask 1 0 1,
    .enqueue 1 false true]

/-- The first Ask gives up between the check and the send of the reply to it, and the second
gets its channel. -/
def lateReply : List (Event ℕ ℕ ℕ ℕ ℕ) :=
  [.ask 0 0 0, .enqueue 0 false true, .dispatch 0 false true, .response 0 40, .giveUp 0, .mark 0,
    .drain 0, .pool 0 true, .ask 1 1 0, .enqueue 1 false true, .send 0, .receive 1]

/-- The late mark closes the context of the second Ask, whose reply is then dropped. The late
reply to the first Ask is what the second returns. -/
theorem ask_replies_mixed :
    ((system (fun _ => 0) [] (fun _ => false) ℕ ℕ).run beforeLateMark).map
        (fun s => ((s.context 0).message, (s.context 0).responseClosed)) = some (.ask 1, false) ∧
      ((system (fun _ => 0) [] (fun _ => false) ℕ ℕ).run (beforeLateMark ++ [.mark 0])).map
        (fun s => ((s.context 0).message, (s.context 0).responseClosed)) = some (.ask 1, true) ∧
      ((system (fun _ => 0) [] (fun _ => false) ℕ ℕ).run (beforeLateMark ++ [.mark 0,
          .dispatch 0 false true, .response 0 41])).map
        (fun s => (s.log, s.buffer 1, (s.handler 0).context)) =
          some ([(0, 40), (1, 41)], none, some 0) ∧
      ((system (fun _ => 0) [] (fun _ => false) ℕ ℕ).run lateReply).map
        (fun s => ((s.place 1).reply, s.log)) = some (some (40, 0), [(0, 40)]) := by
  decide +kernel

end GoAkt.Actor.Exchange
