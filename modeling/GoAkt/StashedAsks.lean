import GoAkt.AskReplyRuns

/-!
# A stashed Ask is answered

Each stash and each return from the stash moves the message of an Ask to another context. If
none of the contexts it returns in is left marked closed from an earlier use, the first
`Response` for the message reaches the Ask, and is what it returns if it does not give up after
the call.
-/
namespace GoAkt.Actor
open List Option GoAkt.Interleavings GoAkt.Pools Function

variable {α ι χ κ β : Type*} [DecidableEq α] [DecidableEq ι] [DecidableEq χ] [DecidableEq κ]

/-- The first value that was passed to `Response` for an Ask. -/
def firstAnswer (log : List (α × β)) (a : α) : Option β :=
  (log.find? fun entry => entry.1 = a).map Prod.snd

variable {log : List (α × β)} {a : α}

lemma firstAnswer_ne_none {v : β} (hmem : (a, v) ∈ log) : firstAnswer log a ≠ none := by
  unfold firstAnswer
  rw [Ne, map_eq_none_iff, find?_eq_none]
  exact fun hnone => hnone (a, v) hmem (decide_eq_true rfl)

/-- Later values change nothing. -/
lemma firstAnswer_append_of_some {v : β} (entry : α × β)
    (hsome : firstAnswer log a = some v) : firstAnswer (log ++ [entry]) a = some v := by
  obtain ⟨first, hfirst, rfl⟩ := map_eq_some_iff.mp hsome
  unfold firstAnswer
  rw [find?_append, hfirst]
  rfl

lemma firstAnswer_append_self (v : β)
    (hnone : firstAnswer log a = none) : firstAnswer (log ++ [(a, v)]) a = some v := by
  have hfind := map_eq_none_iff.mp hnone
  unfold firstAnswer
  rw [find?_append, hfind, find?_singleton]
  simp

lemma firstAnswer_append_of_ne {a b : α} (v : β) (hne : b ≠ a) :
    firstAnswer (log ++ [(a, v)]) b = firstAnswer log b := by
  unfold firstAnswer
  rw [find?_append, find?_singleton]
  simp [Ne.symm hne]

namespace AskPlace
variable {ρ : Type*}

/-- The Ask has not enqueued its message. -/
def early : AskPlace χ κ ρ → Bool
  | .idle | .built _ _ => true
  | _ => false

/-- The Ask has neither a reply nor given up. -/
def pending : AskPlace χ κ ρ → Bool
  | .built _ _ | .waiting _ _ => true
  | _ => false

end AskPlace

namespace Exchange

/-- The context is in a stash, where no actor answers through it. -/
def Stashed (boxes : ι × BoxKind → ContextBox χ) (y : χ) : Prop :=
  ∃ i, y ∈ (boxes (i, .stash)).contents

/-- The contexts of an unanswered Ask that are not in a stash are not closed; the first answer
to an Ask that waits is in its channel or about to be sent, and is what the Ask gets. -/
structure Answered (callee : α → ι) (context : χ → AskContext α κ)
    (place : α → AskPlace χ κ (β × α)) (boxes : ι × BoxKind → ContextBox χ)
    (buffer : κ → Option (β × α)) (handler : ι → HandlerPlace χ β) (log : List (α × β)) :
    Prop where
  early : ∀ a, (place a).early = true → firstAnswer log a = none
  unclosed : ∀ y a, (context y).message = .ask a → (place a).pending = true →
    firstAnswer log a = none → ¬Stashed boxes y → (context y).responseClosed = false
  sent : ∀ a x k v, place a = .waiting x k → firstAnswer log a = some v →
    buffer k = some (v, a) ∨
      buffer k = none ∧ ∃ y, handler (callee a) = .responding y v ∧ (context y).message = .ask a
  replied : ∀ a v o, (place a).reply = some (v, o) → firstAnswer log a = some v

namespace Answered
variable {callee : α → ι} {context : χ → AskContext α κ} {place : α → AskPlace χ κ (β × α)}
  {boxes boxes' : ι × BoxKind → ContextBox χ} {buffer buffer' : κ → Option (β × α)}
  {handler : ι → HandlerPlace χ β} {log : List (α × β)}
  {a : α} {i : ι} {x : χ} {c : AskContext α κ} {p : AskPlace χ κ (β × α)}

section
variable (h : Answered callee context place boxes buffer handler log)
include h
omit [DecidableEq κ]

omit [DecidableEq ι] in
lemma setContext
    (hclosed : ∀ a, c.message = .ask a → (place a).pending = true → firstAnswer log a = none →
      ¬Stashed boxes x → c.responseClosed = false)
    (hc : c.message = (context x).message ∨ ∀ j v, handler j ≠ .responding x v) :
    Answered callee (update context x c) place boxes buffer handler log := by
  refine ⟨h.early, fun y b hb hpending hnone hout => ?_, fun b y k v hwaiting hsome => ?_,
    h.replied⟩
  · by_cases hyx : y = x
    · rw [hyx, update_self] at hb ⊢
      exact hclosed b hb hpending hnone (hyx ▸ hout)
    · rw [update_of_ne hyx] at hb ⊢
      exact h.unclosed y b hb hpending hnone hout
  · rcases h.sent b y k v hwaiting hsome with hbuffer | ⟨hempty, z, hz, hb⟩
    · exact .inl hbuffer
    · refine .inr ⟨hempty, z, hz, ?_⟩
      by_cases hzx : z = x
      · subst hzx
        rcases hc with hc | hnot
        · rw [update_self, hc]
          exact hb
        · exact absurd hz (hnot _ v)
      · rw [update_of_ne hzx]
        exact hb

omit [DecidableEq ι] [DecidableEq χ] in
/-- An Ask goes on, and what it does with channels does not touch those of others. -/
lemma goto (hearly : p.early = true → firstAnswer log a = none)
    (hunclosed : p.pending = true → ∀ y, (context y).message = .ask a →
      firstAnswer log a = none → ¬Stashed boxes y → (context y).responseClosed = false)
    (hwaiting : ∀ x k, p = .waiting x k → firstAnswer log a = none)
    (hbuffer : ∀ b x k, b ≠ a → place b = .waiting x k → buffer' k = buffer k)
    (hreply : ∀ v o, p.reply = some (v, o) → firstAnswer log a = some v) :
    Answered callee context (update place a p) boxes buffer' handler log := by
  refine ⟨fun b hb => ?_, fun y b hb hpending hnone hout => ?_, fun b x k v hb hsome => ?_,
    fun b v o hb => ?_⟩
  · by_cases hba : b = a
    · rw [hba, update_self] at hb
      exact hba ▸ hearly hb
    · rw [update_of_ne hba] at hb
      exact h.early b hb
  · by_cases hba : b = a
    · rw [hba, update_self] at hpending
      exact hunclosed hpending y (hba ▸ hb) (hba ▸ hnone) hout
    · rw [update_of_ne hba] at hpending
      exact h.unclosed y b hb hpending hnone hout
  · by_cases hba : b = a
    · rw [hba, update_self] at hb
      rw [hba, hwaiting x k hb] at hsome
      exact nomatch hsome
    · rw [update_of_ne hba] at hb
      rw [hbuffer b x k hba hb]
      exact h.sent b x k v hb hsome
  · by_cases hba : b = a
    · rw [hba, update_self] at hb
      exact hba ▸ hreply v o hb
    · rw [update_of_ne hba] at hb
      exact h.replied b v o hb

omit [DecidableEq χ] in
/-- An actor that is not in a `Response` goes on. -/
lemma turn {place' : HandlerPlace χ β} (hnot : ∀ x v, handler i ≠ .responding x v) :
    Answered callee context place boxes buffer (update handler i place') log := by
  refine ⟨h.early, h.unclosed, fun b x k v hb hsome => ?_, h.replied⟩
  rcases h.sent b x k v hb hsome with hbuffer | ⟨hempty, y, hy, hmessage⟩
  · exact .inl hbuffer
  · refine .inr ⟨hempty, y, ?_, hmessage⟩
    have hne : callee b ≠ i := fun heq => hnot y v (heq ▸ hy)
    rw [update_of_ne hne]
    exact hy

omit [DecidableEq ι] [DecidableEq χ] in
/-- The mailboxes change, and what is taken from a stash carries no message of an Ask. -/
lemma store (hstashed : ∀ y, Stashed boxes y →
      Stashed boxes' y ∨ ∀ a, (context y).message ≠ .ask a) :
    Answered callee context place boxes' buffer handler log := by
  refine ⟨h.early, fun y b hb hpending hnone hout => ?_, h.sent, h.replied⟩
  refine h.unclosed y b hb hpending hnone fun hy => ?_
  rcases hstashed y hy with hy' | hnot
  · exact hout hy'
  · exact hnot b hb

end
end Answered

omit [DecidableEq χ] in
lemma Stashed.append {boxes : ι × BoxKind → ContextBox χ} {y : χ} (h : Stashed boxes y)
    (box : ι × BoxKind) (x : χ) :
    Stashed (update boxes box { boxes box with queue := (boxes box).queue ++ [x] }) y := by
  obtain ⟨i, hmem⟩ := h
  refine ⟨i, ?_⟩
  by_cases hbox : (i, BoxKind.stash) = box
  · subst hbox
    rw [update_self, Placed.contents_append]
    exact mem_append_left _ hmem
  · rw [update_of_ne hbox]
    exact hmem

/-- The answers of a state. -/
abbrev Answers (callee : α → ι) (s : Exchange α ι χ κ β) : Prop :=
  Answered callee s.context s.place s.boxes s.buffer s.handler s.log

variable {callee : α → ι} {seat : χ → Option (Seat α ι)} {owner : κ → Option α}
  {s s' s₁ : Exchange α ι χ κ β} {a b : α} {i : ι} {x y z : χ} {k k' : κ} {v w : β}

namespace Sound
section
variable (hs : Sound callee seat owner s)
include hs
omit [DecidableEq α] [DecidableEq ι] [DecidableEq χ] [DecidableEq κ]

/-- The channel of another Ask is another one. -/
lemma channel_ne (ha : (s.place a).channel = some k) (hba : b ≠ a)
    (hb : s.place b = .waiting x k') : k' ≠ k := by
  rintro rfl
  exact hba (hs.owner_eq ha (by rw [hb]; rfl))

/-- A context in a mailbox carries the message of an Ask that has been enqueued. -/
lemma not_early {box : ι × BoxKind}
    (hmem : x ∈ (s.boxes box).contents) (ha : (s.context x).message = .ask a) :
    (s.place a).early = false := by
  obtain ⟨k, -, hreach⟩ := hs.letters.asked x a ha
  have hholds := (hs.of_boxed hmem ha).2
  cases hplace : s.place a with
  | idle =>
    rw [hplace] at hreach
    rcases hreach with hreach | hreach
    · exact nomatch hreach
    · exact nomatch hreach
  | built y k => rw [hplace] at hholds; exact nomatch hholds
  | _ => rfl

/-- A loose context is not in a `Response`. -/
lemma not_responding_loose (hboxed : ∀ box, x ∉ (s.boxes box).contents) (j : ι) (w : β) :
    s.handler j ≠ .responding x w := fun hj => by
  obtain ⟨control, hmem⟩ := hs.handled.exists_mem (congrArg HandlerPlace.context hj)
  exact hboxed _ hmem

/-- What an actor handles is not in a stash. -/
lemma not_stashed (hhandling : s.handler i = .handling x) : ¬Stashed s.boxes x := by
  rintro ⟨j, hj⟩
  obtain ⟨control, hmem⟩ := hs.handled.exists_mem (congrArg HandlerPlace.context hhandling)
  have hkind := congrArg Prod.snd (hs.box_eq hmem hj)
  cases control with
  | true | false => exact nomatch hkind

end
end Sound

namespace Answered
section
variable (h : s.Answers callee)
include h

omit [DecidableEq ι] [DecidableEq κ] in
lemma getContext (hs : Sound callee seat owner s)
    (hget : s.getContext x = some s₁) : s₁.Answers callee := by
  have hloose := (hs.getContext hget).2.loose
  obtain ⟨pool, -, rfl⟩ := map_eq_some_iff.mp hget
  split_ifs at hloose ⊢
  · exact h
  · exact Answered.setContext (c := .new) h nofun (.inr (hs.not_responding_loose hloose.not_boxed))

omit [DecidableEq ι] [DecidableEq κ] in
lemma ask (hs : Sound callee seat owner s) (hidle : s.place a = .idle)
    (hget : s.getContext x = some s₁) {channels : Pool κ} :
    (({ s₁ with channelPool := channels }.setContext x (.build a k)).goto a (.built x k)).Answers
      callee := by
  obtain ⟨hs₁, hfetched⟩ := hs.getContext hget
  have h₁ := h.getContext hs hget
  have hidle₁ : s₁.place a = .idle := by rw [hfetched.place]; exact hidle
  have hnone : firstAnswer s₁.log a = none := h₁.early a (by rw [hidle₁]; rfl)
  have hset : Answered callee (update s₁.context x (.build a k)) s₁.place s₁.boxes
      s₁.buffer s₁.handler s₁.log :=
    h₁.setContext (fun _ _ _ _ _ => rfl) (.inr (hs₁.not_responding_loose hfetched.loose.not_boxed))
  refine hset.goto (fun _ => hnone) (fun _ y hy _ _ => ?_) nofun (fun _ _ _ _ _ => rfl) nofun
  by_cases hyx : y = x
  · rw [hyx, update_self]
    rfl
  · -- nothing else carries the message of an Ask that was idle
    rw [update_of_ne hyx] at hy
    obtain ⟨k', -, hreach⟩ := hs₁.letters.asked y a hy
    rw [hidle₁] at hreach
    rcases hreach with hreach | hreach
    · exact nomatch hreach
    · exact nomatch hreach

omit [DecidableEq χ] [DecidableEq κ] in
lemma doReceive (control accepted : Bool) : (s.doReceive i x control accepted).Answers callee := by
  unfold Exchange.doReceive
  split_ifs
  · exact h.store fun y hy => .inl (hy.append _ x)
  · exact h

omit [DecidableEq χ] [DecidableEq κ] in
lemma enqueue (hbuilt : s.place a = .built x k) (control accepted : Bool) :
    ((s.doReceive (callee a) x control accepted).goto a (.waiting x k)).Answers callee := by
  have hnone : firstAnswer s.log a = none := h.early a (by rw [hbuilt]; rfl)
  have hgoto : (s.goto a (.waiting x k)).Answers callee := by
    refine h.goto nofun (fun _ y hy hanswer hout => ?_) (fun _ _ _ => hnone)
      (fun _ _ _ _ _ => rfl) nofun
    exact h.unclosed y a hy (by rw [hbuilt]; rfl) hanswer hout
  have hreceive := hgoto.doReceive (i := callee a) (x := x) control accepted
  unfold Exchange.doReceive at hreceive ⊢
  split_ifs at hreceive ⊢
  all_goals exact hreceive

omit [DecidableEq ι] [DecidableEq χ] in
lemma receive (hs : Sound callee seat owner s)
    (hwaiting : s.place a = .waiting x k) {reply : β × α} (hbuffer : s.buffer k = some reply) :
    ((s.setBuffer k none).goto a (.selected x k (some reply))).Answers callee := by
  obtain ⟨v, o⟩ := reply
  have hchannel : (s.place a).channel = some k := by rw [hwaiting]; rfl
  refine h.goto nofun nofun nofun (fun b y k' hba hb => ?_) (fun w o' hw => ?_)
  · exact update_of_ne (hs.channel_ne hchannel hba hb) ..
  · obtain ⟨rfl, rfl⟩ := Prod.mk.inj (some.inj hw)
    obtain ⟨hopen, hlog⟩ := hs.buffers k v o hbuffer
    obtain rfl : o = a := hs.owner_eq hchannel (AskPlace.channel_of_open hopen)
    obtain ⟨first, hfirst⟩ := ne_none_iff_exists'.mp (firstAnswer_ne_none hlog)
    rcases h.sent o x k first hwaiting hfirst with hsent | ⟨hempty, -⟩
    · rw [hbuffer] at hsent
      obtain ⟨rfl, -⟩ := Prod.mk.inj (some.inj hsent)
      exact hfirst
    · exact nomatch hempty.symm.trans hbuffer

omit [DecidableEq ι] [DecidableEq χ] [DecidableEq κ] in
lemma giveUp : (s.goto a (.selected x k none)).Answers callee :=
  h.goto nofun nofun nofun (fun _ _ _ _ _ => rfl) nofun

end

variable {reply : Option (β × α)}

section
variable (h : s.Answers callee)
include h

omit [DecidableEq ι] [DecidableEq κ] in
lemma mark (hselected : s.place a = .selected x k reply) (hsafe : ¬s.Mixing (.mark a)) :
    ((s.setContext x { s.context x with responseClosed := true }).goto a
      (.marked k reply)).Answers callee := by
  have hset : Answered callee
      (update s.context x { s.context x with responseClosed := true }) s.place s.boxes
      s.buffer s.handler s.log := by
    refine h.setContext (fun b hb hpending hnone hout => ?_) (.inl rfl)
    have hba : b ≠ a := by
      rintro rfl
      rw [hselected] at hpending
      exact nomatch hpending
    have hopen := h.unclosed x b hb hpending hnone hout
    exact absurd ⟨x, k, reply, b, hselected, hb, hba, hopen⟩ hsafe
  refine hset.goto nofun nofun nofun (fun _ _ _ _ _ => rfl) (fun v o hreply => ?_)
  refine h.replied a v o ?_
  rw [hselected]
  exact hreply

omit [DecidableEq ι] [DecidableEq χ] in
lemma drain (hs : Sound callee seat owner s) (hmarked : s.place a = .marked k reply) :
    ((s.setBuffer k none).goto a (.drained k reply)).Answers callee := by
  refine h.goto nofun nofun nofun (fun b y k' hba hb => ?_) (fun v o hreply => ?_)
  · exact update_of_ne (hs.channel_ne (by rw [hmarked]; rfl) hba hb) ..
  · refine h.replied a v o ?_
    rw [hmarked]
    exact hreply

omit [DecidableEq ι] [DecidableEq χ] [DecidableEq κ] in
lemma pool (hdrained : s.place a = .drained k reply) (kept : Bool) :
    ({ s with channelPool := s.channelPool.put k kept }.goto a (.returned reply)).Answers
      callee := by
  refine h.goto nofun nofun nofun (fun _ _ _ _ _ => rfl) (fun v o hreply => ?_)
  refine h.replied a v o ?_
  rw [hdrained]
  exact hreply

omit [DecidableEq κ] in
lemma tell (hs : Sound callee seat owner s)
    (hget : s.getContext x = some s₁) (control accepted : Bool) :
    ((s₁.setContext x (s₁.context x).buildAsync).doReceive i x control accepted).Answers
      callee := by
  obtain ⟨hs₁, hfetched⟩ := hs.getContext hget
  have hset : (s₁.setContext x (s₁.context x).buildAsync).Answers callee :=
    (h.getContext hs hget).setContext nofun
      (.inr (hs₁.not_responding_loose hfetched.loose.not_boxed))
  exact hset.doReceive control accepted

omit [DecidableEq κ] in
/-- A mailbox of an actor that is not in a `Response` gives out its next context. -/
lemma dequeue (hs : Sound callee seat owner s) {kind : BoxKind} {kept : Bool}
    (hdequeue : s.dequeue (i, kind) kept = some (x, s₁))
    (hnot : ∀ y v, s.handler i ≠ .responding y v) (place : HandlerPlace χ β) :
    (s₁.turn i place).Answers callee := by
  unfold Exchange.dequeue at hdequeue
  split at hdequeue
  · exact nomatch hdequeue
  next first queue hqueue =>
    obtain ⟨rfl, rfl⟩ := Prod.mk.inj (some.inj hdequeue)
    -- what leaves the mailbox is the context that is recycled
    have hleft : ∀ y, Stashed s.boxes y →
        Stashed (update s.boxes (i, kind) ⟨some first, queue⟩) y ∨
          (s.boxes (i, kind)).sentinel = some y := by
      rintro y ⟨j, hmem⟩
      by_cases hbox : (j, BoxKind.stash) = (i, kind)
      · rw [hbox, Placed.contents_pop hqueue] at hmem
        rcases mem_append.mp hmem with hmem | hmem
        · exact .inr (mem_toList.mp hmem)
        · refine .inl ⟨j, ?_⟩
          rw [hbox, update_self]
          exact hmem
      · refine .inl ⟨j, ?_⟩
        rw [update_of_ne hbox]
        exact hmem
    cases hsentinel : (s.boxes (i, kind)).sentinel with
    | none =>
      have hstore : Answered callee s.context s.place
          (update s.boxes (i, kind) ⟨some first, queue⟩) s.buffer s.handler s.log :=
        h.store fun y hy => (hleft y hy).imp_right fun heq => nomatch heq.symm.trans hsentinel
      exact hstore.turn hnot
    | some y =>
      have hset : Answered callee (update s.context y (s.context y).reset) s.place s.boxes
          s.buffer s.handler s.log := by
        refine h.setContext nofun (.inr fun j v hj => ?_)
        obtain rfl := hs.eq_of_responding hsentinel hj
        exact hnot y v hj
      have hstore : Answered callee (update s.context y (s.context y).reset) s.place
          (update s.boxes (i, kind) ⟨some first, queue⟩) s.buffer s.handler s.log := by
        refine hset.store fun z hz => (hleft z hz).imp_right fun heq a => ?_
        obtain rfl := some.inj (hsentinel.symm.trans heq)
        rw [update_self]
        exact nofun
      exact hstore.turn hnot

end

omit [DecidableEq ι] [DecidableEq χ] [DecidableEq κ] in
/-- A value is passed to `Response`. If it is the first for an Ask that waits, it is about to be
sent. -/
lemma append {context : χ → AskContext α κ} {place : α → AskPlace χ κ (β × α)}
    {boxes : ι × BoxKind → ContextBox χ} {buffer : κ → Option (β × α)}
    {handler : ι → HandlerPlace χ β} {log : List (α × β)}
    (h : Answered callee context place boxes buffer handler log) (hearly : (place a).early = false)
    (hsent : ∀ x k, place a = .waiting x k → firstAnswer log a = none →
      buffer k = none ∧ ∃ y, handler (callee a) = .responding y v ∧ (context y).message = .ask a) :
    Answered callee context place boxes buffer handler (log ++ [(a, v)]) := by
  have hnone : ∀ b, firstAnswer (log ++ [(a, v)]) b = none → firstAnswer log b = none := by
    intro b hb
    cases hfirst : firstAnswer log b with
    | none => rfl
    | some w => exact nomatch hb.symm.trans (firstAnswer_append_of_some (a, v) hfirst)
  refine ⟨fun b hb => ?_, fun y b hy hpending hb hout => ?_, fun b x k w hb hsome => ?_,
    fun b w o hb => ?_⟩
  · have hba : b ≠ a := by
      rintro rfl
      exact nomatch hearly.symm.trans hb
    rw [firstAnswer_append_of_ne v hba]
    exact h.early b hb
  · exact h.unclosed y b hy hpending (hnone b hb) hout
  · by_cases hba : b = a
    · subst hba
      cases hfirst : firstAnswer log b with
      | none =>
        rw [firstAnswer_append_self v hfirst] at hsome
        obtain rfl := some.inj hsome
        exact .inr (hsent x k hb hfirst)
      | some first =>
        rw [firstAnswer_append_of_some (b, v) hfirst] at hsome
        exact h.sent b x k w hb (hfirst.trans hsome)
    · rw [firstAnswer_append_of_ne v hba] at hsome
      exact h.sent b x k w hb hsome
  · exact firstAnswer_append_of_some (a, v) (h.replied b w o hb)

section
variable (h : s.Answers callee) (hs : Sound callee seat owner s)
  (hhandling : s.handler i = .handling x) (hresponse : (s.context x).response = some k)
include h hs hhandling hresponse
omit [DecidableEq κ]

omit [DecidableEq ι] [DecidableEq χ] in
/-- A `Response` on a context that is closed comes after the first one, if the Ask waits. -/
lemma tooLate (hclosed : (s.context x).responseClosed = true) : (s.record x v).Answers callee := by
  obtain ⟨a, ha⟩ := hs.exists_ask hresponse
  obtain ⟨control, hmem⟩ := hs.handled.exists_mem (congrArg HandlerPlace.context hhandling)
  unfold Exchange.record
  rw [ha]
  refine h.append (hs.not_early hmem ha) fun y k' hwaiting hnone => ?_
  have hopen := h.unclosed x a ha (by rw [hwaiting]; rfl) hnone (hs.not_stashed hhandling)
  exact nomatch hopen.symm.trans hclosed

lemma respond : (((s.record x v).setContext x { s.context x with responseClosed := true }).turn i
      (.responding x v)).Answers callee := by
  obtain ⟨a, ha⟩ := hs.exists_ask hresponse
  obtain ⟨control, hmem⟩ := hs.handled.exists_mem (congrArg HandlerPlace.context hhandling)
  have hcallee : callee a = i := (hs.of_boxed hmem ha).1
  have hturn : Answered callee s.context s.place s.boxes s.buffer
      (update s.handler i (.responding x v)) s.log :=
    h.turn fun y w => hhandling ▸ nofun
  have hrecord : Answered callee s.context s.place s.boxes s.buffer
      (update s.handler i (.responding x v)) (s.log ++ [(a, v)]) := by
    refine hturn.append (hs.not_early hmem ha) fun y k' hwaiting hnone => ⟨?_, x, ?_, ha⟩
    · cases hbuffer : s.buffer k' with
      | none => rfl
      | some reply =>
        -- the channel of an Ask only ever holds an answer to it
        obtain ⟨hopen, hlog⟩ := hs.buffers k' reply.1 reply.2 hbuffer
        have heq : reply.2 = a :=
          hs.owner_eq (k := k') (by rw [hwaiting]; rfl) (AskPlace.channel_of_open hopen)
        exact absurd hnone (firstAnswer_ne_none (heq ▸ hlog))
    · rw [hcallee]
      exact update_self ..
  unfold Exchange.record
  rw [ha]
  refine hrecord.setContext (fun b hb _ hnone _ => ?_) (.inl rfl)
  obtain rfl : a = b := by
    injection ha.symm.trans hb
  exact absurd hnone (firstAnswer_ne_none (mem_append_right _ (mem_singleton.mpr rfl)))

end

omit [DecidableEq α] [DecidableEq ι] [DecidableEq χ] [DecidableEq κ] in
/-- The context that an actor answers through has the channel of an Ask that waits. -/
lemma channel_eq (hs : Sound callee seat owner s) (ha : (s.context x).message = .ask a)
    (hwaiting : s.place a = .waiting y k) : (s.context x).response = some k := by
  obtain ⟨k', hk', hreach⟩ := hs.letters.asked x a ha
  rw [hwaiting] at hreach
  rcases hreach with hopen | hreleased
  · exact hk'.trans hopen.symm
  · exact nomatch hreleased

section
variable (h : s.Answers callee) (hs : Sound callee seat owner s)
include h hs

omit [DecidableEq χ] in
lemma deliver (hresponding : s.handler i = .responding x v) (ha : (s.context x).message = .ask a)
    (hresponse : (s.context x).response = some k) (hempty : s.buffer k = none)
    (hsafe : ¬s.Mixing (.send i)) :
    ((s.turn i (.handling x)).setBuffer k (some (v, a))).Answers callee := by
  have hchannel : (s.place a).channel = some k := by
    obtain ⟨k', hk', hreach⟩ := hs.letters.asked x a ha
    obtain rfl := some.inj (hk'.symm.trans hresponse)
    refine AskPlace.channel_of_open (hreach.resolve_right fun hreleased => hsafe ?_)
    exact ⟨x, v, a, hresponding, ha, hreleased⟩
  obtain ⟨control, hmem⟩ := hs.handled.exists_mem (congrArg HandlerPlace.context hresponding)
  have hcallee : callee a = i := (hs.of_boxed hmem ha).1
  refine ⟨h.early, h.unclosed, fun b y k' w hb hsome => ?_, h.replied⟩
  change update s.buffer k (some (v, a)) k' = some (w, b) ∨
    update s.buffer k (some (v, a)) k' = none ∧
      ∃ z, update s.handler i (.handling x) (callee b) = .responding z w ∧
        (s.context z).message = .ask b
  rcases h.sent b y k' w hb hsome with hbuffer | ⟨hnone, z, hz, hmessage⟩
  · have hne : k' ≠ k := by
      rintro rfl
      exact nomatch hempty.symm.trans hbuffer
    exact .inl ((update_of_ne hne ..).trans hbuffer)
  · by_cases hba : b = a
    · subst hba
      rw [hcallee, hresponding] at hz
      injection hz with hx hv
      obtain rfl : k = k' := some.inj (hresponse.symm.trans (channel_eq hs ha hb))
      exact .inl (hv ▸ update_self ..)
    · have hne : callee b ≠ i := by
        intro heq
        rw [heq, hresponding] at hz
        injection hz with hx hv
        rw [← hx, ha] at hmessage
        injection hmessage with hab
        exact hba hab.symm
      rw [update_of_ne (hs.channel_ne hchannel hba hb), update_of_ne hne]
      exact .inr ⟨hnone, z, hz, hmessage⟩

omit [DecidableEq χ] [DecidableEq κ] in
lemma discard (hresponding : s.handler i = .responding x v)
    (hfull : ∀ a k, (s.context x).message = .ask a → (s.context x).response = some k →
      s.buffer k ≠ none) : (s.turn i (.handling x)).Answers callee := by
  refine ⟨h.early, h.unclosed, fun b y k w hb hsome => ?_, h.replied⟩
  rcases h.sent b y k w hb hsome with hbuffer | ⟨hnone, z, hz, hmessage⟩
  · exact .inl hbuffer
  · have hne : callee b ≠ i := by
      intro heq
      rw [heq, hresponding] at hz
      injection hz with hx hv
      subst hx
      exact hfull b k hmessage (channel_eq hs hmessage hb) hnone
    exact .inr ⟨hnone, z, (update_of_ne hne ..).trans hz, hmessage⟩

omit [DecidableEq κ] in
lemma stash (hget : s.getContext y = some s₁) :
    ((s₁.setContext y ((s₁.context y).cloneContext (s₁.context x))).enqueue (i, .stash) y).Answers
      callee := by
  obtain ⟨hs₁, hfetched⟩ := hs.getContext hget
  have hstore : (s₁.enqueue (i, .stash) y).Answers callee :=
    (h.getContext hs hget).store fun z hz => .inl (hz.append _ y)
  refine hstore.setContext (fun a _ _ _ hout => absurd ⟨i, ?_⟩ hout)
    (.inr (hs₁.not_responding_loose hfetched.loose.not_boxed))
  unfold Exchange.enqueue
  dsimp only
  rw [update_self, Placed.contents_append]
  exact mem_append_right _ (mem_singleton.mpr rfl)

end
end Answered

/-- The step that goes wrong: the message of an unanswered Ask returns from the stash in a
context from the pool that is still marked closed. -/
def Stale (s : Exchange α ι χ κ β) : Event α ι χ κ β → Prop
  | .reenter i y _ _ => ∃ x z a, s.handler i = .unstashing x z ∧ (s.context z).message = .ask a ∧
      (s.place a).pending = true ∧ firstAnswer s.log a = none ∧ y ∈ s.contextPool.free ∧
      (s.context y).responseClosed = true
  | _ => False

section

omit [DecidableEq κ] in
lemma Answered.reenter (h : s.Answers callee) (hs : Sound callee seat owner s)
    (hunstashing : s.handler i = .unstashing x z) (hget : s.getContext y = some s₁)
    (control accepted : Bool) (hsafe : ¬s.Stale (.reenter i y control accepted)) :
    (((s₁.setContext y ((s₁.context y).cloneContext (s₁.context z))).doReceive i y control
      accepted).turn i (.handling x)).Answers callee := by
  obtain ⟨hs₁, hfetched⟩ := hs.getContext hget
  have hmem := Handled.mem_contents (hs.handled.stashed i x z hunstashing)
  have hzy : z ≠ y := by
    rintro rfl
    exact hfetched.loose.not_boxed _ (hfetched.boxes ▸ hmem)
  have hclone : (s₁.setContext y ((s₁.context y).cloneContext (s₁.context z))).Answers callee := by
    refine (h.getContext hs hget).setContext (fun a ha hpending hnone _ => ?_)
      (.inr (hs₁.not_responding_loose hfetched.loose.not_boxed))
    have ha' : (s.context z).message = .ask a := by
      rw [← hfetched.context z hzy]
      exact ha
    rw [hfetched.place] at hpending
    change (s₁.context y).responseClosed = false
    obtain ⟨pool, -, rfl⟩ := map_eq_some_iff.mp hget
    split_ifs at hnone ⊢ with hfree
    · refine Bool.eq_false_iff.mpr fun hclosed => hsafe ?_
      exact ⟨x, z, a, hunstashing, ha', hpending, hnone, hfree, hclosed⟩
    · exact congrArg AskContext.responseClosed (update_self y .new s.context)
  have hhandler : s₁.handler i = .unstashing x z := by
    rw [hfetched.handler]
    exact hunstashing
  refine (hclone.doReceive control accepted).turn fun w v => ?_
  unfold Exchange.doReceive
  split_ifs
  all_goals exact hhandler ▸ nofun

/-- An Ask gives up when `Response` has been called for its message. -/
def Hasty (s : Exchange α ι χ κ β) : Event α ι χ κ β → Prop
  | .giveUp a => firstAnswer s.log a ≠ none
  | _ => False

/-- The steps that close the context of an Ask before its answer, those that mix up replies, and
giving up after the answer. -/
def Losing (s : Exchange α ι χ κ β) (e : Event α ι χ κ β) : Prop :=
  s.Mixing e ∨ s.Stale e ∨ s.Hasty e

lemma Answered.step (h : s.Answers callee) (hs : Sound callee seat owner s) {e : Event α ι χ κ β}
    (hstep : s.step callee e = some s') (hsafe : ¬s.Losing e) : s'.Answers callee := by
  obtain ⟨hmixing, hlost⟩ := not_or.mp hsafe
  have hstale : ¬s.Stale e := fun hstale => hlost (.inl hstale)
  cases move_of_step hstep with
  | ask hidle hget htake => exact h.ask hs hidle hget
  | enqueue hbuilt control accepted => exact h.enqueue hbuilt control accepted
  | receive hwaiting hbuffer => exact h.receive hs hwaiting hbuffer
  | giveUp hwaiting => exact h.giveUp
  | mark hselected => exact h.mark hselected hmixing
  | drain hmarked => exact h.drain hs hmarked
  | pool hdrained kept => exact h.pool hdrained kept
  | tell i hget control accepted => exact h.tell hs hget control accepted
  | dispatch hidle hdequeue => exact h.dequeue hs hdequeue (fun y w => hidle ▸ nofun) _
  | noResponse => exact h
  | tooLate hhandling hresponse hclosed v => exact h.tooLate hs hhandling hresponse hclosed
  | respond hhandling hresponse _ v => exact h.respond hs hhandling hresponse
  | deliver hresponding hasked hresponse hempty =>
    exact h.deliver hs hresponding hasked hresponse hempty hmixing
  | discard hresponding hfull => exact h.discard hs hresponding hfull
  | finish hhandling => exact h.turn fun y w => hhandling ▸ nofun
  | stash hhandling hget => exact h.stash hs hget
  | unstash hhandling hdequeue => exact h.dequeue hs hdequeue (fun y w => hhandling ▸ nofun) _
  | reenter hunstashing hget control accepted =>
    exact h.reenter hs hunstashing hget control accepted hstale

/-- The Ask waits and has been answered with this value, or has it. -/
def Settled (s : Exchange α ι χ κ β) (a : α) (v : β) : Prop :=
  ((∃ x k, s.place a = .waiting x k) ∧ firstAnswer s.log a = some v) ∨
    (s.place a).reply = some (v, a)

namespace Settled
variable {p : AskPlace χ κ (β × α)}

section
variable (hset : s.Settled a v)
include hset
omit [DecidableEq ι] [DecidableEq χ] [DecidableEq κ]

lemma waiting (hwaiting : s.place a = .waiting x k) : firstAnswer s.log a = some v := by
  rcases hset with ⟨-, hsome⟩ | hreply
  · exact hsome
  · rw [hwaiting] at hreply
    exact nomatch hreply

lemma reply (hplace : (s.place a).awaited = none) : (s.place a).reply = some (v, a) := by
  rcases hset with ⟨⟨x, k, hwaiting⟩, -⟩ | hreply
  · rw [hwaiting] at hplace
    exact nomatch hplace
  · exact hreply

lemma goto (hlog : s'.log = s.log) (hplace : s'.place = update s.place b p)
    (hself : b = a → p.reply = some (v, a)) : s'.Settled a v := by
  unfold Settled
  rw [hlog, hplace]
  by_cases hba : b = a
  · subst hba
    rw [update_self]
    exact .inr (hself rfl)
  · rw [update_of_ne (Ne.symm hba)]
    exact hset

lemma stay (hplace : s'.place = s.place) (hlog : s.log <+: s'.log) : s'.Settled a v := by
  obtain ⟨more, hmore⟩ := hlog
  unfold Settled
  rw [hplace, ← hmore]
  refine hset.imp_left (And.imp_right fun hsome => ?_)
  obtain ⟨first, hfirst, rfl⟩ := map_eq_some_iff.mp hsome
  unfold firstAnswer
  rw [find?_append, hfirst]
  rfl

lemma same (hplace : s'.place = s.place) (hlog : s'.log = s.log) : s'.Settled a v :=
  hset.stay hplace (hlog ▸ prefix_rfl)

end

/-- An Ask that has been answered while it waits goes on to return the answer. -/
lemma step (hset : s.Settled a v) (h : s.Answers callee) {e : Event α ι χ κ β}
    (hstep : s.step callee e = some s') (hsafe : ¬s.Losing e) : s'.Settled a v := by
  cases move_of_step hstep with
  | ask hidle hget htake =>
    obtain ⟨-, -, hplace, hlog⟩ := getContext_frame hget
    refine hset.goto hlog (congrArg (update · _ _) hplace) ?_
    rintro rfl
    exact nomatch (congrArg AskPlace.reply hidle).symm.trans (hset.reply (by rw [hidle]; rfl))
  | enqueue hbuilt control accepted =>
    obtain ⟨-, -, hplace, hlog⟩ := doReceive_frame s _ _ control accepted
    refine hset.goto hlog (congrArg (update · _ _) hplace) ?_
    rintro rfl
    exact nomatch (congrArg AskPlace.reply hbuilt).symm.trans (hset.reply (by rw [hbuilt]; rfl))
  | receive hwaiting hbuffer =>
    refine hset.goto rfl rfl ?_
    rintro rfl
    rcases h.sent _ _ _ v hwaiting (hset.waiting hwaiting) with hsent | ⟨hempty, -⟩
    · exact hbuffer.symm.trans hsent
    · exact nomatch hempty.symm.trans hbuffer
  | giveUp hwaiting =>
    refine hset.goto rfl rfl ?_
    rintro rfl
    refine absurd (.inr (.inr fun hnone => ?_)) hsafe
    exact nomatch hnone.symm.trans (hset.waiting hwaiting)
  | mark hplace | drain hplace | pool hplace =>
    refine hset.goto rfl rfl ?_
    rintro rfl
    exact (congrArg AskPlace.reply hplace).symm.trans (hset.reply (by rw [hplace]; rfl))
  | tell i hget control accepted =>
    obtain ⟨-, -, hplace, hlog⟩ := getContext_frame hget
    exact hset.same ((doReceive_frame ..).2.2.1.trans hplace)
      ((doReceive_frame ..).2.2.2.trans hlog)
  | dispatch _ hdequeue | unstash _ hdequeue =>
    obtain ⟨-, -, hplace, hlog⟩ := Sound.dequeue_frame hdequeue
    exact hset.same hplace hlog
  | tooLate | respond =>
    obtain ⟨-, hplace, hlog⟩ := record_frame s _ _
    exact hset.stay hplace hlog
  | noResponse | deliver | discard | finish => exact hset.same rfl rfl
  | stash _ hget =>
    obtain ⟨-, -, hplace, hlog⟩ := getContext_frame hget
    exact hset.same hplace hlog
  | reenter _ hget control accepted =>
    obtain ⟨-, -, hplace, hlog⟩ := getContext_frame hget
    exact hset.same ((doReceive_frame ..).2.2.1.trans hplace)
      ((doReceive_frame ..).2.2.2.trans hlog)

end Settled

/-- The invariant of the runs in which no answer is lost. -/
def Answering (callee : α → ι) (s : Exchange α ι χ κ β) : Prop :=
  Consistent callee s ∧ s.Answers callee

variable {pool : List χ} {closed : χ → Bool} {events : List (Event α ι χ κ β)}

lemma Answering.run (hsafe : ¬(system callee pool closed β κ).Took Losing events)
    (hrun : (system callee pool closed β κ).run events = some s) : Answering callee s := by
  refine System.safe_invariant ?_ (fun s e s' h hstep hnot => ?_) hsafe hrun
  · exact ⟨Consistent.run (System.not_took_nil Mixing) rfl, fun _ _ => rfl, nofun, nofun, nofun⟩
  · obtain ⟨⟨seat, owner, hsound⟩, hanswers⟩ := h
    exact ⟨hsound.step hstep fun hmixing => hnot (.inl hmixing), hanswers.step hsound hstep hnot⟩

omit [DecidableEq α] [DecidableEq ι] [DecidableEq χ] [DecidableEq κ] in
lemma log_record (ha : (s.context x).message = .ask a) :
    (s.record x v).log = s.log ++ [(a, v)] := by
  unfold record
  rw [ha]

/-- What is passed to `Response` for the message of an Ask is an answer to it. -/
lemma log_response (hs : Sound callee seat owner s) (hhandling : s.handler i = .handling x)
    (ha : (s.context x).message = .ask a) (v : β) :
    ∃ s', s.step callee (.response i v) = some s' ∧ s'.log = s.log ++ [(a, v)] := by
  obtain ⟨k, hresponse, -⟩ := hs.letters.asked x a ha
  dsimp only [step]
  rw [hhandling]
  dsimp only
  rw [hresponse]
  dsimp only
  split_ifs
  · exact ⟨_, rfl, log_record ha⟩
  · exact ⟨_, rfl, log_record ha⟩

/-- An Ask takes the reply from its channel. -/
lemma reply_receive (hwaiting : s.place a = .waiting x k) (hbuffer : s.buffer k = some (v, a)) :
    ∃ s', s.step callee (.receive a) = some s' ∧ (s'.place a).reply = some (v, a) := by
  refine ⟨(s.setBuffer k none).goto a (.selected x k (some (v, a))), ?_, ?_⟩
  · dsimp only [step]
    rw [hwaiting]
    dsimp only
    rw [hbuffer]
  · exact congrArg AskPlace.reply (update_self a _ s.place)

/-- A `Response` in progress puts its value into the empty channel. -/
lemma buffer_send (hresponding : s.handler i = .responding x v)
    (ha : (s.context x).message = .ask a) (hresponse : (s.context x).response = some k)
    (hempty : s.buffer k = none) :
    ∃ s', s.step callee (.send i) = some s' ∧ s'.place = s.place ∧ s'.buffer k = some (v, a) := by
  refine ⟨(s.turn i (.handling x)).setBuffer k (some (v, a)), ?_, rfl, update_self k _ s.buffer⟩
  dsimp only [step]
  rw [hresponding]
  dsimp only
  rw [ha, hresponse]
  exact congrArg some (if_pos (isNone_iff_eq_none.mpr hempty))

lemma settled_run (hsafe : ¬(system callee pool closed β κ).Took Losing events)
    (hrun : (system callee pool closed β κ).run events = some s)
    {past : List (Event α ι χ κ β)} (hpast : past <+: events)
    (hbefore : (system callee pool closed β κ).run past = some s₁) (hset : s₁.Settled a v) :
    s.Settled a v := by
  refine System.run_induction (P := fun events s => ¬(system callee pool closed β κ).Took Losing
    events → past <+: events → s.Settled a v) (fun _ hnil => ?_)
    (fun events s e s' hrun ih hstep hsafe hpast => ?_) hrun hsafe hpast
  · cases prefix_nil.mp hnil
    cases hbefore
    exact hset
  · obtain ⟨hsafe₁, hsafe₂⟩ := not_or.mp (mt (System.took_concat hrun e).mpr hsafe)
    rcases prefix_concat_iff.mp hpast with heq | hpast
    · have hrun' := (System.run_concat _ events e s').mpr ⟨s, hrun, hstep⟩
      rw [← heq, hbefore] at hrun'
      exact some.inj hrun' ▸ hset
    · exact (ih hsafe₁ hpast).step (Answering.run hsafe₁ hrun).2 hstep hsafe₂

/-- In every run without a losing step, however often messages are stashed and whatever the
contexts in the pool were used for: a `Response` while the message of an Ask is handled is
counted as an answer to it; an Ask has no other reply than the first answer; an Ask that waits
when it is answered waits on or has the first answer as its reply; and if it waits it gets this
answer with its next step, after the send of the `Response` if that is still in progress. -/
theorem stashed_ask_answered (hsafe : ¬(system callee pool closed β κ).Took Losing events)
    (hrun : (system callee pool closed β κ).run events = some s) :
    (∀ i x a v, s.handler i = .handling x → (s.context x).message = .ask a →
      ∃ s', s.step callee (.response i v) = some s' ∧ s'.log = s.log ++ [(a, v)]) ∧
    (∀ a v o, (s.place a).reply = some (v, o) → firstAnswer s.log a = some v) ∧
    (∀ past s₁ a x k v, past <+: events → (system callee pool closed β κ).run past = some s₁ →
      s₁.place a = .waiting x k → firstAnswer s₁.log a = some v →
        (∃ x k, s.place a = .waiting x k) ∨ (s.place a).reply = some (v, a)) ∧
    ∀ a x k v, s.place a = .waiting x k → firstAnswer s.log a = some v →
      (∃ s', s.step callee (.receive a) = some s' ∧ (s'.place a).reply = some (v, a)) ∨
        ∃ s' s'', s.step callee (.send (callee a)) = some s' ∧
          s'.step callee (.receive a) = some s'' ∧ (s''.place a).reply = some (v, a) := by
  obtain ⟨⟨seat, owner, hsound⟩, hanswers⟩ := Answering.run hsafe hrun
  refine ⟨fun i x a v hhandling ha => log_response hsound hhandling ha v, hanswers.replied,
    fun past s₁ a x k v hpast hbefore hwaiting hsome => ?_, fun a x k v hwaiting hsome => ?_⟩
  · exact (settled_run hsafe hrun hpast hbefore (.inl ⟨⟨x, k, hwaiting⟩, hsome⟩)).imp_left And.left
  rcases hanswers.sent a x k v hwaiting hsome with hbuffer | ⟨hempty, y, hresponding, ha⟩
  · exact .inl (reply_receive hwaiting hbuffer)
  · have hresponse := Answered.channel_eq hsound ha hwaiting
    obtain ⟨s', hsend, hplace, hbuffer⟩ := buffer_send hresponding ha hresponse hempty
    have hwaiting' : s'.place a = .waiting x k := by rw [hplace]; exact hwaiting
    obtain ⟨s'', hreceive⟩ := reply_receive hwaiting' hbuffer
    exact .inr ⟨s', s'', hsend, hreceive⟩

/-- A test that no losing step passes. -/
def fresh (s : Exchange α ι χ κ β) : Event α ι χ κ β → Bool
  | .reenter _ y _ _ => !(s.context y).responseClosed
  | .giveUp a => (firstAnswer s.log a).isNone
  | e => s.unmixed e

omit [DecidableEq ι] [DecidableEq χ] [DecidableEq κ] in
lemma not_losing_of_fresh (s : Exchange α ι χ κ β) (e : Event α ι χ κ β)
    (htest : s.fresh e = true) : ¬s.Losing e := by
  cases e with
  | reenter i y control accepted =>
    rintro (hmixing | ⟨x, z, a, -, -, -, -, -, hclosed⟩ | hhasty)
    · exact hmixing
    · have hopen : (!(s.context y).responseClosed) = true := htest
      rw [hclosed] at hopen
      exact nomatch hopen
    · exact hhasty
  | giveUp a =>
    rintro (hmixing | hstale | hhasty)
    · exact hmixing
    · exact hstale
    · exact hhasty (isNone_iff_eq_none.mp htest)
  | _ =>
    rintro (hmixing | hstale | hhasty)
    · exact absurd hmixing (not_mixing_of_unmixed s _ htest)
    · exact hstale
    · exact hhasty

end

/-- The message of the Ask is stashed, returned, stashed and returned again, and answered. -/
def stashTwice : List (Event ℕ ℕ ℕ ℕ ℕ) :=
  [.ask 0 0 0, .enqueue 0 false true, .dispatch 0 false true, .stash 0 1, .unstash 0 true,
    .reenter 0 2 false true, .finish 0, .dispatch 0 false true, .stash 0 3, .unstash 0 true,
    .reenter 0 4 false true, .finish 0, .dispatch 0 false true, .response 0 40]

/-- It is answered when it waits, and has this answer when it has returned. -/
theorem stashed_ask_answered_stashTwice :
    ∃ s, (system (fun _ => 0) [] (fun _ => false) ℕ ℕ).run (stashTwice ++ [.send 0, .receive 0,
      .mark 0, .drain 0, .pool 0 true]) = some s ∧ (s.place 0).reply = some (40, 0) := by
  obtain ⟨s, hrun, hsafe, hreleased⟩ := System.exists_safe_run
    (system (fun _ => 0) [] (fun _ => false) ℕ ℕ) (stashTwice ++ [.send 0, .receive 0, .mark 0,
      .drain 0, .pool 0 true]) (fun s => (s.place 0).released = true) not_losing_of_fresh
    (by decide +kernel)
  obtain ⟨s₁, hbefore, hsome, hplace⟩ : ∃ s₁,
      (system (fun _ => 0) [] (fun _ => false) ℕ ℕ).run stashTwice = some s₁ ∧
        firstAnswer s₁.log 0 = some 40 ∧ (s₁.place 0).awaited = some (0, 0) :=
    System.exists_run (by decide +kernel)
  have hwaiting : s₁.place 0 = .waiting 0 0 := by
    cases hp : s₁.place 0 with
    | waiting x k =>
      rw [hp] at hplace
      cases hplace
      rfl
    | _ =>
      rw [hp] at hplace
      cases hplace
  obtain ⟨-, -, hreturns, -⟩ := stashed_ask_answered hsafe hrun
  refine ⟨s, hrun, (hreturns stashTwice s₁ 0 0 0 40 (prefix_append _ _) hbefore hwaiting
    hsome).resolve_left ?_⟩
  rintro ⟨x, k, hagain⟩
  rw [hagain] at hreleased
  exact nomatch hreleased

/-- Context 5 is in the pool, closed by an exchange long ago. The message of the Ask is stashed
in a new context and returned in this one, and the handler then answers with 40. -/
def staleStash : List (Event ℕ ℕ ℕ ℕ ℕ) :=
  [.ask 0 0 0, .enqueue 0 false true, .dispatch 0 false true, .stash 0 1, .unstash 0 true,
    .reenter 0 5 false true, .finish 0, .dispatch 0 false true, .response 0 40]

/-- The answer is dropped: the Ask waits, its channel is empty and no send is in progress. It
can only give up. -/
theorem stashed_ask_unanswered :
    ((system (fun _ => 0) [5] (fun _ => true) ℕ ℕ).run staleStash).map
        (fun s => (firstAnswer s.log 0, (s.place 0).openChannel, s.buffer 0)) =
      some (some 40, some 0, none) ∧
    ((system (fun _ => 0) [5] (fun _ => true) ℕ ℕ).run (staleStash ++ [.send 0])).isNone ∧
    ((system (fun _ => 0) [5] (fun _ => true) ℕ ℕ).run (staleStash ++ [.receive 0])).isNone ∧
    ((system (fun _ => 0) [5] (fun _ => true) ℕ ℕ).run (staleStash ++
        [.giveUp 0, .mark 0, .drain 0, .pool 0 true])).map
        (fun s => (firstAnswer s.log 0, (s.place 0).released, (s.place 0).reply)) =
      some (some 40, true, none) := by
  decide +kernel

end Exchange
end GoAkt.Actor
