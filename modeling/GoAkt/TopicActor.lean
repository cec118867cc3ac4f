import GoAkt.ActorTree
import GoAkt.Interleavings
import GoAkt.TTLMap

/-!
# The topic actor

One actor per node keeps the local subscribers of each topic. A `Publish` from a local
actor is sent to them and to the topic actors of the peers; what a peer sends arrives as a
`TopicMessage`. Deliveries are remembered by sender, topic and message ID in an expiring
map.

The topic actor handles one message at a time and waits for the sends it starts, so one
handled message is one step. There is one exception: a `Publish` whose question for the
peers fails returns while its sends to the local subscribers are still running. What a
handler reads outside of the actor (the tree, whether an actor runs, whether a mailbox
takes a message) is the argument `Surroundings`.
-/
namespace GoAkt.Actor
open GoAkt.FiniteMaps GoAkt.Interleavings GoAkt.XSync List

/-- The track ID of a message. -/
structure Key where
  senderID : String
  topic : String
  messageID : String
deriving DecidableEq

structure Publish (μ : Type*) where
  id : String
  topic : String
  message : μ

/-- A message on its way between two topic actors, serialized. -/
structure TopicMessage (β : Type*) where
  id : String
  topic : String
  message : β

structure RemotePeer where
  host : String
  port : ℕ
deriving DecidableEq

structure Surroundings where
  registered : String → Bool
  running : PID → Bool
  accepts : PID → Bool
  reachable : RemotePeer → Bool

/-- The subscriber is registered and runs, so that the message is sent to it. -/
def Surroundings.alive (around : Surroundings) (p : PID) : Bool :=
  around.registered p.id && around.running p

/-- The topic actor's part of the system: its serializer, which may be missing, whether
the system is clustered, and how long messages are remembered. -/
structure PubsubSetting (μ β : Type*) where
  inCluster : Bool
  serialize : μ → Option β
  deserialize : Option (β → Option μ)
  retention : ℤ

/-- What leaves the topic actor. The key that comes with a message is bookkeeping. -/
inductive Outgoing (μ β : Type*)
  | tell (receiver : PID) (key : Key) (message : μ)
  | subscribeAck (receiver : PID) (topic : String)
  | unsubscribeAck (receiver : PID) (topic : String)
  | watch (p : PID)
  | remoteTell (receiver : RemotePeer) (message : TopicMessage β)
  | internalError

open Outgoing

structure TopicActor where
  topics : Map String (Map String PID)
  processed : TTLMap Key Unit

namespace TopicActor
variable {μ β : Type*}

def newTopicActor (retention : ℤ) : TopicActor := ⟨∅, .new retention⟩

variable (cfg : PubsubSetting μ β) (x : TopicActor) (around : Surroundings)

/-- The loop over the values of a subscriber map: the message goes to those that are
alive, the others are removed. Returns the map and those whose mailbox took it. -/
def fanOut (subscribers : Map String PID) : Map String PID × List PID :=
  subscribers.entries.foldl (fun acc entry =>
      if around.alive entry.2 then
        (acc.1, if around.accepts entry.2 then acc.2 ++ [entry.2] else acc.2)
      else (acc.1.erase entry.2.id, acc.2))
    (subscribers, [])

def sendToLocalSubscribers (id : Key) (message : μ) : TopicActor × List (Outgoing μ β) :=
  match x.topics.lookup id.topic with
  | some subscribers =>
    if subscribers.keys.length ≠ 0 then
      let sent := fanOut around subscribers
      ({ x with topics := x.topics.insert id.topic sent.1 }, sent.2.map fun p => .tell p id message)
    else (x, [])
  | none => (x, [])

def sendToRemoteTopicActors (peers : List RemotePeer) (publish : Publish μ) : List (Outgoing μ β) :=
  (peers.filter around.reachable).filterMap fun peer =>
    (cfg.serialize publish.message).map fun marshaled =>
      .remoteTell peer ⟨publish.id, publish.topic, marshaled⟩

def publishKey (sender : Option PID) (publish : Publish μ) : Key :=
  ⟨sender.elim "" PID.id, publish.topic, publish.id⟩

/-- The clock is read twice, by the lookup and by the insertion. The last component is
the send to local subscribers that is still running when the handler has returned. -/
def handlePublish (sender : Option PID) (publish : Publish μ) (checked marked : ℤ)
    (peers : Option (List RemotePeer)) :
    TopicActor × List (Outgoing μ β) × List (Key × μ) :=
  let id := publishKey sender publish
  match x.processed.get checked id with
  | (some _, processed) => ({ x with processed }, [], [])
  | (none, processed) =>
    let x := { x with processed := processed.set marked id () }
    let sent := x.sendToLocalSubscribers around id publish.message
    if cfg.inCluster then
      match peers with
      | none => (x, [.internalError], [(id, publish.message)])
      | some peers => (sent.1, sent.2 ++ sendToRemoteTopicActors cfg around peers publish, [])
    else (sent.1, sent.2, [])

def topicMessageKey (sender : PID) (message : TopicMessage β) : Key :=
  ⟨sender.id, message.topic, message.id⟩

/-- The message of a peer, if there is a serializer that decodes it. -/
def decode (message : TopicMessage β) : Option μ :=
  cfg.deserialize.bind fun deserialize => deserialize message.message

def handleTopicMessage (sender : PID) (topicMessage : TopicMessage β) (checked : ℤ) :
    TopicActor × List (Outgoing μ β) :=
  match decode cfg topicMessage with
  | none => (x, [])
  | some message =>
    let id := topicMessageKey sender topicMessage
    match x.processed.get checked id with
    | (some _, processed) => ({ x with processed }, [])
    | (none, processed) => { x with processed }.sendToLocalSubscribers around id message

def handleSubscribe (sender : PID) (running : Bool) (topic : String) :
    TopicActor × List (Outgoing μ β) :=
  if running then
    -- a topic without subscribers gets a new map
    let known := (x.topics.lookup topic).filter fun subscribers => subscribers.keys.length ≠ 0
    let subscribers := (known.getD ∅).insert sender.id sender
    ({ x with topics := x.topics.insert topic subscribers },
      [.watch sender, .subscribeAck sender topic])
  else (x, [])

def handleUnsubscribe (sender : PID) (topic : String) : TopicActor × List (Outgoing μ β) :=
  match x.topics.lookup topic with
  | some subscribers =>
    ({ x with topics := x.topics.insert topic (subscribers.erase sender.id) },
      [.unsubscribeAck sender topic])
  | none => (x, [])

/-- The subscriber is removed from all topics. -/
def handleTerminated (actorID : String) : TopicActor :=
  { x with
    topics := collect x.topics.keys fun topic => (x.topics.lookup topic).map fun subscribers =>
      match subscribers.lookup actorID with
      | some subscriber => subscribers.erase subscriber.id
      | none => subscribers }

end TopicActor

open TopicActor

/-- A topic actor with all that has left it, and the sends to local subscribers whose
handler has returned already. -/
structure Pubsub (μ β : Type*) where
  actor : TopicActor
  sent : List (Outgoing μ β)
  running : List (Key × μ)

namespace Pubsub
variable {μ β : Type*}

inductive Event (μ β : Type*)
  | publish (around : Surroundings) (sender : Option PID) (publish : Publish μ)
      (checked marked : ℤ) (peers : Option (List RemotePeer))
  | topicMessage (around : Surroundings) (sender : PID) (message : TopicMessage β) (checked : ℤ)
  | subscribe (sender : PID) (running : Bool) (topic : String)
  | unsubscribe (sender : PID) (topic : String)
  | terminated (actorID : String)
  | finishSend (around : Surroundings) (i : ℕ)

variable (cfg : PubsubSetting μ β) (s : Pubsub μ β) (events : List (Event μ β))

def emit (result : TopicActor × List (Outgoing μ β)) : Pubsub μ β :=
  { s with actor := result.1, sent := s.sent ++ result.2 }

def step : Event μ β → Option (Pubsub μ β)
  | .publish around sender publish checked marked peers =>
    let result := s.actor.handlePublish cfg around sender publish checked marked peers
    some { s.emit (result.1, result.2.1) with running := s.running ++ result.2.2 }
  | .topicMessage around sender message checked =>
    some (s.emit (s.actor.handleTopicMessage cfg around sender message checked))
  | .subscribe sender running topic => some (s.emit (s.actor.handleSubscribe sender running topic))
  | .unsubscribe sender topic => some (s.emit (s.actor.handleUnsubscribe sender topic))
  | .terminated actorID => some { s with actor := s.actor.handleTerminated actorID }
  | .finishSend around i =>
    s.running[i]?.map fun job =>
      { s.emit (s.actor.sendToLocalSubscribers around job.1 job.2) with
        running := s.running.eraseIdx i }

def system : System (Pubsub μ β) (Event μ β) where
  start := ⟨.newTopicActor cfg.retention, [], []⟩
  step := step cfg

/-- The message was handled, with this key. A message of a peer that cannot be decoded is
dropped unseen. -/
def Event.arrival : Event μ β → Option (Key × μ)
  | .publish _ sender msg _ _ _ => some (TopicActor.publishKey sender msg, msg.message)
  | .topicMessage _ sender message _ =>
    (TopicActor.decode cfg message).map (TopicActor.topicMessageKey sender message, ·)
  | _ => none

def Event.arrives (e : Event μ β) (k : Key) : Prop := (e.arrival cfg).map Prod.fst = some k

def Event.publishes (e : Event μ β) (k : Key) : Prop :=
  match e with
  | .publish _ sender msg _ _ _ => TopicActor.publishKey sender msg = k
  | _ => False

/-- The readings of the clock while the message is handled. -/
def Event.readings : Event μ β → List ℤ
  | .publish _ _ _ checked marked _ => [checked, marked]
  | .topicMessage _ _ _ checked => [checked]
  | _ => []

/-- The surroundings in which the local subscribers are served. -/
def Event.serves : Event μ β → Option Surroundings
  | .publish around _ _ _ _ _ => some around
  | .topicMessage around _ _ _ => some around
  | _ => none

/-- The system is clustered and the peers could not be asked for. -/
def Event.aborts : Event μ β → Bool
  | .publish _ _ _ _ _ peers => cfg.inCluster && peers.isNone
  | _ => false

/-- All messages are handled within the retention time. -/
def Within : Prop :=
  ∀ e ∈ events, ∀ e' ∈ events, ∀ t ∈ e.readings, ∀ t' ∈ e'.readings, t' < t + cfg.retention

/-- When a key arrives again, a `Publish` with that key was handled before. -/
def Remembered : Prop :=
  ∀ past e, past ++ [e] <+: events → ∀ k, e.arrives cfg k → (∃ e' ∈ past, e'.arrives cfg k) →
    ∃ e' ∈ past, e'.publishes k

end Pubsub

/-- The message, if it went to this actor with this key. -/
def Outgoing.delivered {μ β : Type*} (p : PID) (k : Key) : Outgoing μ β → Option μ
  | .tell receiver key message => if receiver = p ∧ key = k then some message else none
  | _ => none

/-- The messages that an actor received with a key, in order. -/
def Pubsub.deliveries {μ β : Type*} (s : Pubsub μ β) (p : PID) (k : Key) : List μ :=
  s.sent.filterMap (Outgoing.delivered p k)

namespace TopicActor
variable {μ β : Type*}

/-- Subscribers are kept under their own ID. -/
def Tidy (x : TopicActor) : Prop :=
  ∀ topic subscribers, x.topics.lookup topic = some subscribers →
    ∀ id p, subscribers.lookup id = some p → p.id = id

def Subscribed (x : TopicActor) (topic : String) (p : PID) : Prop :=
  ∃ subscribers, x.topics.lookup topic = some subscribers ∧ subscribers.lookup p.id = some p

lemma foldl_fanOut (around : Surroundings) (entries : List (Sigma fun _ : String => PID))
    (m : Map String PID) (told : List PID) :
    (entries.foldl (fun acc entry =>
        if around.alive entry.2 then
          (acc.1, if around.accepts entry.2 then acc.2 ++ [entry.2] else acc.2)
        else (acc.1.erase entry.2.id, acc.2)) (m, told)).2 =
      told ++ (entries.map Sigma.snd).filter (fun p => around.alive p && around.accepts p) ∧
    ∀ id p, (entries.foldl (fun acc entry =>
        if around.alive entry.2 then
          (acc.1, if around.accepts entry.2 then acc.2 ++ [entry.2] else acc.2)
        else (acc.1.erase entry.2.id, acc.2)) (m, told)).1.lookup id = some p →
      m.lookup id = some p := by
  induction entries generalizing m told with
  | nil => exact ⟨by simp, fun _ _ h => h⟩
  | cons entry entries ih =>
    rw [foldl_cons, map_cons, filter_cons]
    by_cases halive : around.alive entry.2 = true
    · rw [if_pos halive]
      obtain ⟨htold, hlookup⟩ := ih m (if around.accepts entry.2 then told ++ [entry.2] else told)
      refine ⟨?_, hlookup⟩
      rw [htold, halive, Bool.true_and]
      split_ifs
      · rw [append_assoc, singleton_append]
      · rfl
    · rw [if_neg halive]
      obtain ⟨htold, hlookup⟩ := ih (m.erase entry.2.id) told
      refine ⟨?_, fun id p h => ?_⟩
      · rw [htold, Bool.not_eq_true _ |>.mp halive, Bool.false_and]
        rfl
      · have herased := hlookup id p h
        rw [lookup_erase_ite] at herased
        split_ifs at herased
        exact herased

lemma told_eq (around : Surroundings) (subscribers : Map String PID) :
    (fanOut around subscribers).2 = (subscribers.entries.map Sigma.snd).filter
      (fun p => around.alive p && around.accepts p) :=
  (foldl_fanOut around subscribers.entries subscribers []).1

variable {subscribers : Map String PID}

section
variable (around : Surroundings) (hkeyed : ∀ id p, subscribers.lookup id = some p → p.id = id)
include around hkeyed

lemma nodup_told : (fanOut around subscribers).2.Nodup := by
  rw [told_eq]
  refine List.Nodup.filter _ (List.Nodup.of_map PID.id ?_)
  have hids : (subscribers.entries.map Sigma.snd).map PID.id = subscribers.keys := by
    rw [map_map]
    refine map_congr_left fun entry hentry => ?_
    exact hkeyed entry.1 entry.2 ((mem_entries_iff_lookup subscribers entry.1 entry.2).mp hentry)
  rw [hids]
  exact subscribers.keys_nodup

lemma mem_told (p : PID) : p ∈ (fanOut around subscribers).2 ↔
      subscribers.lookup p.id = some p ∧ around.alive p = true ∧ around.accepts p = true := by
  rw [told_eq, mem_filter, Bool.and_eq_true]
  refine and_congr_left fun _ => ?_
  constructor
  · intro hmem
    obtain ⟨⟨id, q⟩, hentry, rfl⟩ := mem_map.mp hmem
    have hlookup := (mem_entries_iff_lookup subscribers id q).mp hentry
    rw [hkeyed id q hlookup]
    exact hlookup
  · intro hlookup
    exact mem_map_of_mem (mem_entries_iff_lookup subscribers p.id p |>.mpr hlookup)

end

lemma delivered_told (p : PID) (k id : Key) (message : μ) (told : List PID) (hnodup : told.Nodup) :
    ((told.map fun q => (Outgoing.tell q id message : Outgoing μ β)).filterMap
      (Outgoing.delivered p k)) = if id = k ∧ p ∈ told then [message] else [] := by
  induction told with
  | nil => simp
  | cons q told ih =>
    obtain ⟨hfresh, hnodup⟩ := nodup_cons.mp hnodup
    rw [map_cons, filterMap_cons, ih hnodup]
    by_cases hq : q = p
    · subst hq
      by_cases hid : id = k
      · simp [delivered, hid, hfresh]
      · simp [delivered, hid]
    · simp [delivered, hq, Ne.symm hq]

variable {x : TopicActor}

/-- What one round of sends to the local subscribers delivers. -/
lemma delivered_sendToLocalSubscribers (htidy : x.Tidy) (around : Surroundings)
    (id : Key) (message : μ) (p : PID) (k : Key) :
    ((x.sendToLocalSubscribers around id message : TopicActor × List (Outgoing μ β)).2.filterMap
      (Outgoing.delivered p k)).length ≤ 1 ∧ (id ≠ k → (x.sendToLocalSubscribers around id message :
      TopicActor × List (Outgoing μ β)).2.filterMap (Outgoing.delivered p k) = []) ∧
    (x.Subscribed id.topic p → around.alive p = true → around.accepts p = true →
      (x.sendToLocalSubscribers around id message :
        TopicActor × List (Outgoing μ β)).2.filterMap (Outgoing.delivered p id) = [message]) := by
  unfold sendToLocalSubscribers
  cases htopic : x.topics.lookup id.topic with
  | none =>
    refine ⟨Nat.zero_le _, fun _ => rfl, fun hsub _ _ => ?_⟩
    obtain ⟨subscribers, hsome, -⟩ := hsub
    exact nomatch htopic.symm.trans hsome
  | some subscribers =>
    have hkeyed := htidy id.topic subscribers htopic
    dsimp only
    by_cases hlen : subscribers.keys.length ≠ 0
    · rw [if_pos hlen]
      have hdelivered := fun k => delivered_told (β := β) p k id message
        (fanOut around subscribers).2 (nodup_told around hkeyed)
      refine ⟨?_, fun hne => ?_, fun hsub halive haccepts => ?_⟩
      · rw [hdelivered]
        split_ifs <;> simp
      · rw [hdelivered, if_neg fun h => hne h.1]
      · obtain ⟨subscribers', hsome, hlookup⟩ := hsub
        cases htopic.symm.trans hsome
        rw [hdelivered, if_pos ⟨rfl, (mem_told around hkeyed p).mpr ⟨hlookup, halive, haccepts⟩⟩]
    · rw [if_neg hlen]
      refine ⟨Nat.zero_le _, fun _ => rfl, fun hsub _ _ => ?_⟩
      obtain ⟨subscribers', hsome, hlookup⟩ := hsub
      cases htopic.symm.trans hsome
      have hkey := (mem_keys_iff_lookup subscribers p.id).mpr ⟨p, hlookup⟩
      rw [length_eq_zero_iff.mp (not_not.mp hlen)] at hkey
      exact nomatch hkey

lemma Tidy.insert (h : x.Tidy) {topic : String}
    (hkeyed : ∀ id p, subscribers.lookup id = some p → p.id = id) :
    Tidy { x with topics := x.topics.insert topic subscribers } := by
  intro topic' subscribers' hlookup
  rw [lookup_insert_ite] at hlookup
  split_ifs at hlookup
  · cases hlookup
    exact hkeyed
  · exact h topic' subscribers' hlookup

lemma Tidy.erase (h : x.Tidy) {topic : String}
    (hsome : x.topics.lookup topic = some subscribers) (key : String) :
    ∀ id p, (subscribers.erase key).lookup id = some p → p.id = id := by
  intro id p hp
  rw [lookup_erase_ite] at hp
  split_ifs at hp
  exact h topic subscribers hsome id p hp

lemma Tidy.sendToLocalSubscribers (h : x.Tidy) (around : Surroundings) (id : Key) (message : μ) :
    (x.sendToLocalSubscribers around id message : TopicActor × List (Outgoing μ β)).1.Tidy := by
  unfold TopicActor.sendToLocalSubscribers
  cases htopic : x.topics.lookup id.topic with
  | none => exact h
  | some subscribers =>
    dsimp only
    split_ifs
    · refine h.insert fun id' p hp => h id.topic subscribers htopic id' p ?_
      exact (foldl_fanOut around subscribers.entries subscribers []).2 id' p hp
    · exact h

lemma processed_sendToLocalSubscribers (x : TopicActor) (around : Surroundings) (id : Key)
    (message : μ) :
    (x.sendToLocalSubscribers around id message :
      TopicActor × List (Outgoing μ β)).1.processed = x.processed := by
  unfold sendToLocalSubscribers
  split
  · dsimp only
    split_ifs <;> rfl
  · rfl

lemma Tidy.handleSubscribe (h : x.Tidy) (sender : PID) (running : Bool) (topic : String) :
    (x.handleSubscribe sender running topic : TopicActor × List (Outgoing μ β)).1.Tidy := by
  unfold TopicActor.handleSubscribe
  split_ifs
  · refine h.insert fun id p hp => ?_
    rw [lookup_insert_ite] at hp
    split_ifs at hp with hid
    · cases hp
      exact hid.symm
    · cases hknown : (x.topics.lookup topic).filter
        fun subscribers => decide (subscribers.keys.length ≠ 0) with
      | none =>
        rw [hknown] at hp
        exact nomatch hp
      | some subscribers =>
        rw [hknown] at hp
        exact h topic subscribers (Option.filter_eq_some_iff.mp hknown).1 id p hp
  · exact h

lemma Tidy.handleUnsubscribe (h : x.Tidy) (sender : PID) (topic : String) :
    (x.handleUnsubscribe sender topic : TopicActor × List (Outgoing μ β)).1.Tidy := by
  unfold TopicActor.handleUnsubscribe
  cases htopic : x.topics.lookup topic with
  | none => exact h
  | some subscribers => exact h.insert (h.erase htopic sender.id)

lemma Tidy.handleTerminated (h : x.Tidy) (actorID : String) :
    (x.handleTerminated actorID).Tidy := by
  intro topic subscribers hlookup
  rw [TopicActor.handleTerminated, lookup_collect] at hlookup
  split_ifs at hlookup
  obtain ⟨before, hbefore, rfl⟩ := Option.map_eq_some_iff.mp hlookup
  split
  · exact h.erase hbefore _
  · exact h topic before hbefore

end TopicActor

namespace Pubsub
variable {μ β : Type*} {cfg : PubsubSetting μ β} {events : List (Event μ β)} {s s' : Pubsub μ β}
  {e : Event μ β}

lemma Event.arrives_of_publishes {k : Key} (h : e.publishes k) : e.arrives cfg k := by
  cases e with
  | publish around sender msg checked marked peers => exact congrArg some h
  | _ => exact h.elim

/-- The expiring map holds the keys of the `Publish` messages handled so far. -/
structure Memory (cfg : PubsubSetting μ β) (events : List (Event μ β)) (m : TTLMap Key Unit) :
    Prop where
  ttl : m.ttl = cfg.retention
  recorded : ∀ e ∈ events, ∀ k, e.publishes k → ∃ entry, m.entry k = some entry ∧
    ∃ e' ∈ events, ∃ t ∈ e'.readings, entry.expireAt = t + cfg.retention
  known : ∀ k entry, m.entry k = some entry → ∃ e ∈ events, e.publishes k

namespace Memory
variable {m : TTLMap Key Unit}

lemma concat (h : Memory cfg events m)
    (hknown : ∀ k, e.publishes k → ∃ e' ∈ events, e'.publishes k) :
    Memory cfg (events ++ [e]) m where
  ttl := h.ttl
  recorded e₁ he₁ k hk := by
    obtain ⟨e₂, he₂, hk₂⟩ : ∃ e₂ ∈ events, e₂.publishes k := by
      rcases mem_append.mp he₁ with hold | hnew
      · exact ⟨e₁, hold, hk⟩
      · rw [mem_singleton.mp hnew] at hk
        exact hknown k hk
    obtain ⟨entry, hentry, e', he', t, ht, hexpire⟩ := h.recorded e₂ he₂ k hk₂
    exact ⟨entry, hentry, e', mem_append_left _ he', t, ht, hexpire⟩
  known k entry hentry :=
    let ⟨e', he', hk⟩ := h.known k entry hentry
    ⟨e', mem_append_left _ he', hk⟩

variable (h : Memory cfg events m) (hwithin : Within cfg (events ++ [e])) {now : ℤ}
  (hnow : now ∈ e.readings)
include h hwithin hnow

/-- Nothing that is stored has expired. -/
lemma live {k : Key} {entry : TtlEntry Key Unit} (hentry : m.entry k = some entry) :
    now < entry.expireAt := by
  obtain ⟨e₁, he₁, hk⟩ := h.known k entry hentry
  obtain ⟨entry', hentry', e', he', t, ht, hexpire⟩ := h.recorded e₁ he₁ k hk
  cases hentry.symm.trans hentry'
  rw [hexpire]
  exact hwithin e' (mem_append_left _ he') e mem_concat_self t ht now hnow

lemma get_isSome (k : Key) : (m.get now k).1.isSome = true ↔ ∃ e' ∈ events, e'.publishes k := by
  rw [TTLMap.get_eq]
  constructor
  · intro hsome
    cases hentry : m.entry k with
    | none =>
      rw [hentry] at hsome
      cases hsome
    | some entry => exact h.known k entry hentry
  · rintro ⟨e', he', hk⟩
    obtain ⟨entry, hentry, -⟩ := h.recorded e' he' k hk
    rw [hentry, Option.bind_some, if_pos (h.live hwithin hnow hentry)]
    rfl

lemma entry_get (k k' : Key) : (m.get now k).2.entry k' = m.entry k' := by
  rcases m.entry_get now k k' with hsame | ⟨-, -, entry, hentry, hexpired⟩
  · exact hsame
  · exact absurd (h.live hwithin hnow hentry) (not_lt.mpr hexpired)

lemma get (k : Key) : Memory cfg events (m.get now k).2 where
  ttl := (m.ttl_get now k).trans h.ttl
  recorded e' he' k' hk' := by
    rw [h.entry_get hwithin hnow]
    exact h.recorded e' he' k' hk'
  known k' entry hentry := by
    rw [h.entry_get hwithin hnow] at hentry
    exact h.known k' entry hentry

lemma mark {k : Key} (hpublishes : e.publishes k) (honly : ∀ k', e.publishes k' → k' = k) :
    Memory cfg (events ++ [e]) (m.set now k ()) := by
  have hpositive : 0 < m.ttl := by
    have hself := hwithin e mem_concat_self e mem_concat_self now hnow now hnow
    rw [h.ttl]
    omega
  refine ⟨(m.ttl_set now k ()).trans h.ttl, fun e₁ he₁ k' hk' => ?_, fun k' entry hentry => ?_⟩
  · by_cases heq : k' = k
    · subst heq
      refine ⟨_, m.entry_set_self k' () hpositive, e, mem_concat_self, now, hnow, ?_⟩
      rw [h.ttl]
    · have hold : e₁ ∈ events := by
        rcases mem_append.mp he₁ with hold | hnew
        · exact hold
        · rw [mem_singleton.mp hnew] at hk'
          exact absurd (honly k' hk') heq
      obtain ⟨entry, hentry, e', he', t, ht, hexpire⟩ := h.recorded e₁ hold k' hk'
      exact ⟨entry, TTLMap.entry_set_of_live () heq hentry (h.live hwithin hnow hentry),
        e', mem_append_left _ he', t, ht, hexpire⟩
  · rcases TTLMap.entry_of_set hentry with ⟨rfl, -⟩ | ⟨-, hold⟩
    · exact ⟨e, mem_concat_self, hpublishes⟩
    · obtain ⟨e', he', hk⟩ := h.known k' entry hold
      exact ⟨e', mem_append_left _ he', hk⟩

end Memory

/-- The sends to local subscribers that are still running for a key. -/
def waiting (s : Pubsub μ β) (k : Key) : ℕ := s.running.countP fun job => decide (job.1 = k)

structure Sound (cfg : PubsubSetting μ β) (events : List (Event μ β)) (s : Pubsub μ β) : Prop where
  tidy : s.actor.Tidy
  memory : Memory cfg events s.actor.processed
  silent : ∀ k, (∀ e ∈ events, ¬e.arrives cfg k) → (∀ p, s.deliveries p k = []) ∧ s.waiting k = 0
  once : ∀ p k, (s.deliveries p k).length + s.waiting k ≤ 1

lemma sound_start (cfg : PubsubSetting μ β) : Sound cfg [] (system cfg).start where
  tidy := fun topic subscribers hlookup => by simp [system, newTopicActor] at hlookup
  memory :=
    { ttl := rfl
      recorded := nofun
      known := nofun }
  silent _ _ := ⟨fun _ => rfl, rfl⟩
  once _ _ := Nat.zero_le _

/-- A step keeps the books if what it sends was waiting, or goes with a key that arrives
for the first time. -/
lemma Sound.concat (h : Sound cfg events s) (htidy : s'.actor.Tidy)
    (hmemory : Memory cfg (events ++ [e]) s'.actor.processed) {out : List (Outgoing μ β)}
    (hsent : s'.sent = s.sent ++ out)
    (hbooks : ∀ p k, (out.filterMap (Outgoing.delivered p k)).length + s'.waiting k ≤ s.waiting k ∨
      ((∀ e' ∈ events, ¬e'.arrives cfg k) ∧ e.arrives cfg k ∧
        (out.filterMap (Outgoing.delivered p k)).length + s'.waiting k ≤ 1)) :
    Sound cfg (events ++ [e]) s' := by
  have hdeliveries : ∀ p k, s'.deliveries p k =
      s.deliveries p k ++ out.filterMap (delivered p k) := by
    intro p k
    rw [deliveries, hsent, filterMap_append]
    rfl
  refine ⟨htidy, hmemory, fun k hnone => ?_, fun p k => ?_⟩
  · obtain ⟨hempty, hwaiting⟩ := h.silent k fun e' he' => hnone e' (mem_append_left _ he')
    have hlast := hnone e mem_concat_self
    have hzero : ∀ p, out.filterMap (delivered p k) = [] ∧ s'.waiting k = 0 := by
      intro p
      rcases hbooks p k with hkeep | ⟨-, harrives, -⟩
      · rw [hwaiting] at hkeep
        exact ⟨length_eq_zero_iff.mp (by omega), by omega⟩
      · exact (hlast harrives).elim
    refine ⟨fun p => ?_, (hzero ⟨"", "a", 0, by decide⟩).2⟩
    rw [hdeliveries, hempty p, (hzero p).1]
    rfl
  · rw [hdeliveries, length_append]
    rcases hbooks p k with hkeep | ⟨hfirst, -, hone⟩
    · have hbefore := h.once p k
      omega
    · obtain ⟨hempty, -⟩ := h.silent k hfirst
      rw [hempty p, length_nil]
      omega

/-- A key whose lookup fails has not arrived before. -/
lemma Sound.first (h : Sound cfg events s) (hwithin : Within cfg (events ++ [e]))
    (hremembered : ∀ k, e.arrives cfg k → (∃ e' ∈ events, e'.arrives cfg k) →
      ∃ e' ∈ events, e'.publishes k) {now : ℤ} (hnow : now ∈ e.readings) {k : Key}
    (harrives : e.arrives cfg k) (hmiss : (s.actor.processed.get now k).1 = none) :
    ∀ e' ∈ events, ¬e'.arrives cfg k := by
  intro e' he' hk
  have hfound := (h.memory.get_isSome hwithin hnow k).mpr (hremembered k harrives ⟨e', he', hk⟩)
  rw [hmiss] at hfound
  cases hfound

lemma Sound.quiet (h : Sound cfg events s) (htidy : s'.actor.Tidy)
    (hmemory : Memory cfg (events ++ [e]) s'.actor.processed) {out : List (Outgoing μ β)}
    (hsent : s'.sent = s.sent ++ out) (hrunning : s'.running = s.running)
    (hout : ∀ p k, out.filterMap (Outgoing.delivered p k) = []) :
    Sound cfg (events ++ [e]) s' := by
  refine h.concat htidy hmemory hsent fun p k => .inl ?_
  rw [hout, length_nil, zero_add, waiting, hrunning]
  exact le_rfl

lemma filterMap_remote (around : Surroundings) (peers : List RemotePeer) (msg : Publish μ)
    (p : PID) (k : Key) :
    (TopicActor.sendToRemoteTopicActors cfg around peers msg).filterMap
      (Outgoing.delivered p k) = [] := by
  refine filterMap_eq_nil_iff.mpr fun o ho => ?_
  obtain ⟨peer, -, hpeer⟩ := mem_filterMap.mp ho
  obtain ⟨marshaled, -, rfl⟩ := Option.map_eq_some_iff.mp hpeer
  rfl

/-- What a `Publish` does: nothing if its key is remembered. Otherwise the key is recorded
and the message is sent to the local subscribers, or left to be sent. -/
inductive Published (cfg : PubsubSetting μ β) (x : TopicActor) (around : Surroundings) (id : Key)
    (message : μ) (checked marked : ℤ) :
    Bool → TopicActor × List (Outgoing μ β) × List (Key × μ) → Prop
  | again (aborts : Bool) (hfound : (x.processed.get checked id).1.isSome = true) :
    Published cfg x around id message checked marked aborts
      ({ x with processed := (x.processed.get checked id).2 }, [], [])
  | left (hmiss : (x.processed.get checked id).1 = none) :
    Published cfg x around id message checked marked true
      ({ x with processed := (x.processed.get checked id).2.set marked id () },
        [.internalError], [(id, message)])
  | sent (hmiss : (x.processed.get checked id).1 = none) (round : TopicActor × List (Outgoing μ β))
      (hround : round = TopicActor.sendToLocalSubscribers
        { x with processed := (x.processed.get checked id).2.set marked id () } around id message)
      (remote : List (Outgoing μ β))
      (hremote : ∀ p k, remote.filterMap (Outgoing.delivered p k) = []) :
    Published cfg x around id message checked marked false (round.1, round.2 ++ remote, [])

lemma published_of_handlePublish (cfg : PubsubSetting μ β) (x : TopicActor)
    (around : Surroundings) (sender : Option PID) (msg : Publish μ) (checked marked : ℤ)
    (peers : Option (List RemotePeer)) :
    Published cfg x around (TopicActor.publishKey sender msg) msg.message checked marked
      (cfg.inCluster && peers.isNone)
      (x.handlePublish cfg around sender msg checked marked peers) := by
  unfold handlePublish
  dsimp only
  rcases hget : x.processed.get checked (publishKey sender msg) with ⟨found, processed⟩
  have hprocessed := congrArg Prod.snd hget
  have hfound := congrArg Prod.fst hget
  dsimp only at hprocessed hfound
  subst hprocessed
  cases found with
  | some _ => exact .again _ (by rw [hfound]; rfl)
  | none =>
    dsimp only
    cases hcluster : cfg.inCluster with
    | false =>
      have hsent : Published cfg x around (publishKey sender msg) msg.message checked
          marked false (_, _ ++ [], []) := .sent hfound _ rfl [] fun _ _ => rfl
      rw [append_nil] at hsent
      exact hsent
    | true =>
      cases peers with
      | none => exact .left hfound
      | some peers => exact .sent hfound _ rfl _ (filterMap_remote around peers msg)

variable {around : Surroundings}

section
variable (h : Sound cfg events s)
include h

/-- The sends of the round are booked under a key that arrives for the first time. -/
lemma Sound.served {x : TopicActor} {id : Key}
    {message : μ} {round : TopicActor × List (Outgoing μ β)}
    (hround : round = x.sendToLocalSubscribers around id message) (htidy : x.Tidy)
    (hmemory : Memory cfg (events ++ [e]) x.processed)
    (hfirst : ∀ e' ∈ events, ¬e'.arrives cfg id) (harrives : e.arrives cfg id)
    {remote : List (Outgoing μ β)} (hremote : ∀ p k, remote.filterMap (Outgoing.delivered p k) = [])
    (hactor : s'.actor = round.1) (hsent : s'.sent = s.sent ++ (round.2 ++ remote))
    (hrunning : s'.running = s.running) : Sound cfg (events ++ [e]) s' := by
  have hprocessed : round.1.processed = x.processed := by
    rw [hround]
    exact processed_sendToLocalSubscribers x around id message
  have htidy' : round.1.Tidy := by
    rw [hround]
    exact htidy.sendToLocalSubscribers around id message
  refine h.concat (hactor ▸ htidy') (hactor ▸ hprocessed ▸ hmemory) hsent fun p k => ?_
  obtain ⟨hone, hother, -⟩ := delivered_sendToLocalSubscribers (β := β) htidy around id message p k
  rw [← hround] at hone hother
  have hwaiting : s'.waiting k = s.waiting k := by rw [waiting, hrunning]; rfl
  rw [filterMap_append, hremote, append_nil, hwaiting]
  by_cases hk : id = k
  · subst hk
    refine .inr ⟨hfirst, harrives, ?_⟩
    rw [(h.silent id hfirst).2]
    exact hone
  · refine .inl ?_
    rw [hother hk, length_nil, zero_add]

/-- A send that was left over is taken from the waiting ones. -/
lemma Sound.finishSend {i : ℕ} (hstep : step cfg s (.finishSend around i) = some s') :
    Sound cfg (events ++ [.finishSend around i]) s' := by
  obtain ⟨⟨id, message⟩, hjob, rfl⟩ := Option.map_eq_some_iff.mp hstep
  have hround := processed_sendToLocalSubscribers (β := β) s.actor around id message
  refine h.concat (h.tidy.sendToLocalSubscribers around id message)
    (hround ▸ h.memory.concat fun k hk => hk.elim) rfl fun p k => .inl ?_
  obtain ⟨hone, hother, -⟩ := delivered_sendToLocalSubscribers (β := β) h.tidy around id message p k
  have hperm := (List.getElem?_eq_some_iff.mp hjob).elim fun hlt heq =>
    heq ▸ getElem_cons_eraseIdx_perm hlt
  have hwaiting := hperm.countP_eq (fun job => decide (job.1 = k))
  rw [countP_cons] at hwaiting
  change (_ : List μ).length + (s.running.eraseIdx i).countP _ ≤ s.running.countP _
  dsimp only
  by_cases hk : id = k
  · subst hk
    simp only [decide_true, if_true] at hwaiting
    omega
  · rw [hother hk, length_nil, zero_add]
    omega

variable (hwithin : Within cfg (events ++ [e]))
  (hremembered : ∀ k, e.arrives cfg k → (∃ e' ∈ events, e'.arrives cfg k) →
    ∃ e' ∈ events, e'.publishes k)
include hwithin hremembered

lemma Sound.publish {sender : Option PID}
    {msg : Publish μ} {checked marked : ℤ} {peers : Option (List RemotePeer)}
    (hevent : e = .publish around sender msg checked marked peers)
    (hstep : step cfg s e = some s') : Sound cfg (events ++ [e]) s' := by
  subst hevent
  have hlookup := h.memory.get hwithin mem_cons_self (publishKey sender msg)
  have hmark := hlookup.mark hwithin (mem_cons_of_mem checked (mem_singleton_self marked)) rfl
    fun k hk => hk.symm
  have hfirst := h.first hwithin hremembered mem_cons_self rfl
  simp only [step, Option.some.injEq] at hstep
  subst hstep
  have hcases := published_of_handlePublish cfg s.actor around sender msg checked marked peers
  generalize s.actor.handlePublish cfg around sender msg checked marked peers = result at hcases
  generalize (cfg.inCluster && peers.isNone) = aborts at hcases
  cases hcases with
  | again aborts hfound =>
    refine h.quiet h.tidy (hlookup.concat fun k hk => ?_) rfl (append_nil _) fun p k => rfl
    obtain rfl : publishKey sender msg = k := hk
    exact (h.memory.get_isSome hwithin mem_cons_self _).mp hfound
  | left hmiss =>
    refine h.concat h.tidy hmark rfl fun p k => ?_
    have hwaiting :
        waiting { s with running := s.running ++ [(publishKey sender msg, msg.message)] } k =
          s.waiting k + _ := countP_append
    rw [countP_singleton] at hwaiting
    by_cases hk : publishKey sender msg = k
    · subst hk
      rw [(h.silent _ (hfirst hmiss)).2, if_pos (decide_eq_true rfl)] at hwaiting
      exact .inr ⟨hfirst hmiss, rfl, (zero_add _).trans_le hwaiting.le⟩
    · rw [if_neg (by simpa using hk)] at hwaiting
      exact .inl ((zero_add _).trans_le hwaiting.le)
  | sent hmiss round hround remote hremote =>
    exact h.served hround h.tidy hmark (hfirst hmiss) rfl hremote rfl rfl (append_nil _)

lemma Sound.topicMessage {sender : PID}
    {msg : TopicMessage β} {checked : ℤ} (hevent : e = .topicMessage around sender msg checked)
    (hstep : step cfg s e = some s') : Sound cfg (events ++ [e]) s' := by
  subst hevent
  simp only [step, Option.some.injEq, handleTopicMessage] at hstep
  cases hdecode : decode cfg msg with
  | none =>
    rw [hdecode] at hstep
    subst hstep
    exact h.quiet h.tidy (h.memory.concat fun k hk => hk.elim) rfl rfl fun p k => rfl
  | some message =>
    let e : Event μ β := .topicMessage around sender msg checked
    have harrives : e.arrives cfg (topicMessageKey sender msg) := by
      rw [Event.arrives, Event.arrival, hdecode]
      rfl
    have hlookup : Memory cfg (events ++ [e]) _ :=
      (h.memory.get hwithin mem_cons_self (topicMessageKey sender msg)).concat fun k => False.elim
    have hfirst := h.first hwithin hremembered mem_cons_self harrives
    rw [hdecode] at hstep
    dsimp only at hstep
    rcases hget : s.actor.processed.get checked (topicMessageKey sender msg) with
      ⟨found, processed⟩
    rw [hget] at hstep hlookup hfirst
    cases found with
    | some _ =>
      subst hstep
      exact h.quiet h.tidy hlookup rfl rfl fun p k => rfl
    | none =>
      subst hstep
      exact h.served (x := { s.actor with processed }) rfl h.tidy hlookup (hfirst rfl) harrives
        (fun p k => filterMap_nil) rfl (congrArg (s.sent ++ ·) (append_nil _).symm) rfl

lemma Sound.step (hstep : Pubsub.step cfg s e = some s') : Sound cfg (events ++ [e]) s' := by
  cases he : e with
  | publish around sender msg checked marked peers =>
    rw [← he]
    exact h.publish hwithin hremembered he hstep
  | topicMessage around sender msg checked =>
    rw [← he]
    exact h.topicMessage hwithin hremembered he hstep
  | subscribe sender running topic =>
    subst he
    cases hstep
    refine h.quiet (h.tidy.handleSubscribe sender running topic) ?_ rfl rfl fun p k => ?_
    · unfold emit handleSubscribe
      split_ifs <;> exact h.memory.concat fun k hk => hk.elim
    · unfold handleSubscribe
      split_ifs <;> rfl
  | unsubscribe sender topic =>
    subst he
    cases hstep
    refine h.quiet (h.tidy.handleUnsubscribe sender topic) ?_ rfl rfl fun p k => ?_
    · unfold emit handleUnsubscribe
      split <;> exact h.memory.concat fun k hk => hk.elim
    · unfold handleUnsubscribe
      split <;> rfl
  | terminated actorID =>
    subst he
    cases hstep
    exact h.quiet (h.tidy.handleTerminated actorID) (h.memory.concat fun k hk => hk.elim)
      (append_nil _).symm rfl fun p k => rfl
  | finishSend around i =>
    subst he
    exact h.finishSend hstep

end

lemma Sound.run (hwithin : Within cfg events) (hremembered : Remembered cfg events)
    (hrun : (system cfg).run events = some s) : Sound cfg events s := by
  refine System.run_induction (P := fun events s => Within cfg events → Remembered cfg events →
    Sound cfg events s) (fun _ _ => sound_start cfg) ?_ hrun hwithin hremembered
  intro events s e s' _ ih hstep hwithin hremembered
  refine (ih (fun e₁ he₁ e₂ he₂ => ?_) fun past e' hpast => ?_).step hwithin (fun k => ?_) hstep
  · exact hwithin e₁ (mem_append_left _ he₁) e₂ (mem_append_left _ he₂)
  · exact hremembered past e' (hpast.trans (prefix_append _ _))
  · exact hremembered events e prefix_rfl k

/-- Messages are only added to what was sent. -/
lemma sent_of_step (hstep : step cfg s e = some s') : s.sent <+: s'.sent := by
  cases e with
  | finishSend around i =>
    obtain ⟨job, -, rfl⟩ := Option.map_eq_some_iff.mp hstep
    exact prefix_append _ _
  | terminated actorID =>
    cases hstep
    exact prefix_rfl
  | _ =>
    cases hstep
    exact prefix_append _ _

lemma sent_of_foldlM {after : List (Event μ β)} (hrun : after.foldlM (step cfg) s = some s') :
    s.sent <+: s'.sent := by
  induction after generalizing s with
  | nil =>
    cases hrun
    exact prefix_rfl
  | cons e after ih =>
    obtain ⟨s₁, hstep, hafter⟩ := Option.bind_eq_some_iff.mp hrun
    exact (sent_of_step hstep).trans (ih hafter)

/-- The first arrival of a key is delivered, unless its handler was cut short. -/
lemma Sound.delivers (h : Sound cfg events s) (hwithin : Within cfg (events ++ [e])) {k : Key}
    {message : μ} (harrival : e.arrival cfg = some (k, message))
    (hfirst : ∀ e' ∈ events, ¬e'.arrives cfg k) (haborts : e.aborts cfg = false)
    (hserves : e.serves = some around) {p : PID}
    (hsubscribed : s.actor.Subscribed k.topic p) (halive : around.alive p = true)
    (haccepts : around.accepts p = true) (hstep : Pubsub.step cfg s e = some s') :
    s'.deliveries p k = [message] := by
  have hempty := (h.silent k hfirst).1 p
  have hmiss : ∀ now ∈ e.readings, (s.actor.processed.get now k).1 = none := by
    intro now hnow
    by_contra hsome
    obtain ⟨e', he', hk⟩ :=
      (h.memory.get_isSome hwithin hnow k).mp (Option.isSome_iff_ne_none.mpr hsome)
    exact hfirst e' he' (Event.arrives_of_publishes hk)
  have hround := fun processed => (delivered_sendToLocalSubscribers (β := β)
    (x := { s.actor with processed }) h.tidy around k message p k).2.2 hsubscribed halive haccepts
  cases e with
  | publish around' sender msg checked marked peers =>
    cases hserves
    cases harrival
    have hcases := published_of_handlePublish cfg s.actor around sender msg checked marked peers
    rw [show (cfg.inCluster && peers.isNone) = false from haborts] at hcases
    cases hstep
    generalize s.actor.handlePublish cfg around sender msg checked marked peers = result at hcases
    cases hcases with
    | again aborts hfound =>
      rw [hmiss checked mem_cons_self] at hfound
      cases hfound
    | sent _ round hsent remote hremote =>
      change (s.sent ++ (round.2 ++ remote)).filterMap _ = _
      rw [filterMap_append, filterMap_append, hremote, append_nil, hsent, hround]
      exact congrArg (· ++ _) hempty
  | topicMessage around' sender msg checked =>
    cases hserves
    obtain ⟨decoded, hdecode, heq⟩ := Option.map_eq_some_iff.mp harrival
    cases heq
    cases hstep
    rw [deliveries, emit, handleTopicMessage, hdecode]
    dsimp only
    have hget := hmiss checked (mem_singleton_self _)
    rcases hpair : s.actor.processed.get checked (topicMessageKey sender msg) with
      ⟨found, processed⟩
    rw [hpair] at hget
    dsimp only at hget
    subst hget
    dsimp only
    rw [filterMap_append, hround]
    exact congrArg (· ++ _) hempty
  | _ => cases hserves

/-- Within the retention time, if every key that arrives again was the key of a `Publish`
before, an actor receives at most one message with a key. It receives the first one if it
was subscribed when it arrived, runs, and its mailbox takes the message. -/
theorem topic_messages_once (hwithin : Within cfg events) (hremembered : Remembered cfg events)
    (hrun : (system cfg).run events = some s) :
    (∀ p k, (s.deliveries p k).length ≤ 1) ∧
    ∀ before e after s₁ k message around p, events = before ++ e :: after →
      (system cfg).run before = some s₁ → e.arrival cfg = some (k, message) →
      (∀ e' ∈ before, ¬e'.arrives cfg k) → e.aborts cfg = false → e.serves = some around →
      s₁.actor.Subscribed k.topic p → around.alive p = true → around.accepts p = true →
        s.deliveries p k = [message] := by
  have hsound := Sound.run hwithin hremembered hrun
  have honce : ∀ p k, (s.deliveries p k).length ≤ 1 := by
    intro p k
    have := hsound.once p k
    omega
  refine ⟨honce, ?_⟩
  rintro before e after s₁ k message around p rfl hbefore harrival hfirst haborts hserves
    hsubscribed halive haccepts
  obtain ⟨s₂, hstep, hafter⟩ := Option.bind_eq_some_iff.mp (System.run_split hbefore hrun)
  have hpast : before ++ [e] <+: before ++ e :: after := ⟨after, by simp⟩
  have hwithin' : Within cfg (before ++ [e]) := fun e₁ he₁ e₂ he₂ =>
    hwithin e₁ (hpast.subset he₁) e₂ (hpast.subset he₂)
  have hsound₁ : Sound cfg before s₁ := by
    refine Sound.run (fun e₁ he₁ e₂ he₂ => ?_) (fun past e' hpre => ?_) hbefore
    · exact hwithin e₁ (mem_append_left _ he₁) e₂ (mem_append_left _ he₂)
    · exact hremembered past e' (hpre.trans (prefix_append _ _))
  have hdelivered := hsound₁.delivers hwithin' harrival hfirst haborts hserves hsubscribed halive
    haccepts hstep
  -- later steps only add deliveries, and there is room for no other
  obtain ⟨out, hout⟩ := sent_of_foldlM hafter
  have hlater : s.deliveries p k = [message] ++ out.filterMap (delivered p k) := by
    rw [← hdelivered, deliveries, deliveries, ← filterMap_append, hout]
  have hbound := honce p k
  rw [hlater, length_append, length_singleton] at hbound
  rw [hlater, length_eq_zero_iff.mp (by omega : (out.filterMap _).length = 0)]
  rfl

/-- Strings as messages, sent as they are. -/
def sampleSetting (inCluster : Bool) : PubsubSetting String String :=
  ⟨inCluster, some, some some, 10⟩

def reader : PID := ⟨"goakt://sys@127.0.0.1:9000/reader", "reader", 0, by decide⟩

def peerTopicActor : PID := ⟨"goakt://sys@127.0.0.2:9000/topic", "topic", 1, by decide⟩

def allWell : Surroundings := ⟨fun _ => true, fun _ => true, fun _ => true, fun _ => true⟩

def greeting : Event String String :=
  .publish allWell (some reader) ⟨"m", "news", "hello"⟩ 0 0 (some [])

/-- A message of a peer that arrives with a key of its own between two equal ones. -/
def publishTwice : List (Event String String) :=
  [.subscribe reader true "news", greeting,
    .topicMessage allWell peerTopicActor ⟨"m", "news", "hello"⟩ 1, greeting]

theorem topic_messages_once_publishTwice :
    ∃ s, (system (sampleSetting true)).run publishTwice = some s ∧
      Within (sampleSetting true) publishTwice ∧ Remembered (sampleSetting true) publishTwice ∧
      s.deliveries reader ⟨reader.id, "news", "m"⟩ = ["hello"] := by
  have hwithin : Within (sampleSetting true) publishTwice := by
    unfold Within
    decide
  have hremembered : Remembered (sampleSetting true) publishTwice := by
    intro past e hpast k hk hbefore
    rcases past with _ | ⟨e₁, _ | ⟨e₂, _ | ⟨e₃, _ | ⟨e₄, past⟩⟩⟩⟩
    · obtain ⟨e', he', -⟩ := hbefore
      exact nomatch he'
    all_goals
      simp only [publishTwice, cons_append, nil_append, cons_prefix_cons,
        prefix_nil, append_eq_nil_iff, cons_ne_self, and_false] at hpast
    · obtain ⟨rfl, rfl, -⟩ := hpast
      obtain ⟨e', he', hk'⟩ := hbefore
      rw [mem_singleton.mp he'] at hk'
      cases hk'
    · obtain ⟨rfl, rfl, rfl, -⟩ := hpast
      cases hk
      obtain ⟨e', he', hk'⟩ := hbefore
      rcases mem_pair.mp he' with rfl | rfl
      · cases hk'
      · exact absurd (Key.mk.inj (Option.some.inj hk')).1 (by decide)
    · obtain ⟨rfl, rfl, rfl, rfl, -⟩ := hpast
      cases hk
      exact ⟨greeting, by simp, rfl⟩
  obtain ⟨s₁, hrun₁, hsub⟩ : ∃ s₁, (system (sampleSetting true)).run
      [.subscribe reader true "news"] = some s₁ ∧ s₁.actor.Subscribed "news" reader :=
    ⟨_, rfl, _, rfl, rfl⟩
  obtain ⟨s, hrun⟩ : ∃ s, (system (sampleSetting true)).run publishTwice = some s := ⟨_, rfl⟩
  refine ⟨s, hrun, hwithin, hremembered, ?_⟩
  exact (topic_messages_once hwithin hremembered hrun).2 [.subscribe reader true "news"] greeting _
    s₁ _ _ allWell reader rfl hrun₁ rfl (by simp [Event.arrives, Event.arrival]) rfl rfl hsub rfl
    rfl

/-- A peer's message that arrives twice is delivered twice. A `Publish` whose question for
the peers fails is not delivered to a subscriber that unsubscribes before the send runs. -/
theorem topic_message_twice_or_never :
    (∃ s k, (system (sampleSetting true)).run [.subscribe reader true "news",
        .topicMessage allWell peerTopicActor ⟨"m", "news", "hello"⟩ 0,
        .topicMessage allWell peerTopicActor ⟨"m", "news", "hello"⟩ 1] = some s ∧
      s.deliveries reader k = ["hello", "hello"]) ∧
    ∃ s₁ s k, (system (sampleSetting true)).run [.subscribe reader true "news"] = some s₁ ∧
      s₁.actor.Subscribed k.topic reader ∧
      (system (sampleSetting true)).run [.subscribe reader true "news",
        .publish allWell (some reader) ⟨"m", "news", "hello"⟩ 0 0 none,
        .unsubscribe reader "news", .finishSend allWell 0] = some s ∧
      s.deliveries reader k = [] ∧ s.running.length = 0 := by
  constructor
  · exact ⟨_, ⟨peerTopicActor.id, "news", "m"⟩, rfl, by decide +kernel⟩
  · exact ⟨_, _, ⟨reader.id, "news", "m"⟩, rfl, ⟨_, rfl, rfl⟩, rfl, by decide +kernel, rfl⟩

end Pubsub
end GoAkt.Actor
