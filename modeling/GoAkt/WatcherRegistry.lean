import GoAkt.Replicator

/-!
# The watcher registry of the replicator

The replicator keeps a list of watchers for every key. A subscription appends to it, the end of a
subscription or of the watcher removes one entry, and a change is told to the entries that run and
drops the others. The lists are compared with the set of the actors that are registered, which
depends on the handled messages alone. Between the two stands the set that a change prunes.
-/
namespace GoAkt.Replication
open GoAkt.FiniteMaps List Option
variable {V W : Type*}

/-- The messages that concern the watchers, and the change of a key. -/
inductive WatchEvent (V W : Type*)
  | subscribe (ctx : Context W) (key : Key)
  | unsubscribe (ctx : Context W) (key : Key)
  | terminated (actorID : ActorID)
  | change (ctx : Context W) (keyID : String) (data : V)

namespace Replicator

def watchStep (r : Replicator V W) : WatchEvent V W → Outcome V W
  | .subscribe ctx key => r.handleSubscribe ctx key
  | .unsubscribe ctx key => r.handleUnsubscribe ctx key
  | .terminated actorID => r.handleTerminated actorID
  | .change ctx keyID data => r.notifyChanged ctx keyID data

def watchRun (r : Replicator V W) (events : List (WatchEvent V W)) : Replicator V W :=
  events.foldl (fun r e => (r.watchStep e).1) r

/-- The watchers of a key. -/
def watchersOf (r : Replicator V W) (keyID : String) : List ActorID :=
  (r.watchers.lookup keyID).getD []

end Replicator

/-- Which actors are registered for which keys. -/
abbrev Registry := String → ActorID → Bool

/-- An actor is registered from its subscription on, until it unsubscribes or its termination is
handled. -/
def Registry.step (reg : Registry) : WatchEvent V W → Registry
  | .subscribe ctx key => fun k a => reg k a || (k = key.id ∧ ctx.sender = some a)
  | .unsubscribe ctx key => fun k a => reg k a && !(k = key.id ∧ ctx.sender = some a : Bool)
  | .terminated actorID => fun k a => reg k a && !(a = actorID : Bool)
  | .change _ _ _ => reg

/-- The actors that are registered after these events. -/
def registered (events : List (WatchEvent V W)) : Registry :=
  events.foldl Registry.step fun _ _ => false

/-- An actor subscribes to a key it is registered for, or one that lives is registered for a key and
does not run when the key changes. -/
def Registry.Spoils (alive : ActorID → Prop) (reg : Registry) : WatchEvent V W → Prop
  | .subscribe ctx key => ∃ a, ctx.sender = some a ∧ reg key.id a = true
  | .change ctx keyID _ => ∃ a, alive a ∧ reg keyID a = true ∧ ctx.isRunning a = false
  | _ => False

/-- A change forgets the actors that do not run. -/
def Registry.prune (reg : Registry) : WatchEvent V W → Registry
  | .change ctx keyID _ => fun k a => reg k a && (!(k = keyID : Bool) || ctx.isRunning a)
  | e => reg.step e

/-- Those that are kept are registered, and those that live and are registered are kept. -/
def Keeps (alive : ActorID → Prop) (reg kept : Registry) : Prop :=
  ∀ k a, (kept k a = true → reg k a = true) ∧ (alive a → reg k a = true → kept k a = true)

lemma Keeps.step {alive : ActorID → Prop} {reg kept : Registry} (h : Keeps alive reg kept)
    {e : WatchEvent V W} (hsafe : ¬reg.Spoils alive e) :
    Keeps alive (reg.step e) (kept.prune e) := by
  intro k a
  obtain ⟨hsound, hcomplete⟩ := h k a
  cases e with
  | subscribe | unsubscribe | terminated =>
    simp only [Registry.prune, Registry.step, Bool.or_eq_true, Bool.and_eq_true]
    exact ⟨by tauto, by tauto⟩
  | change ctx keyID data =>
    simp only [Registry.prune, Registry.step, Bool.and_eq_true]
    refine ⟨fun hkept => hsound hkept.1, fun halive hreg => ⟨hcomplete halive hreg, ?_⟩⟩
    by_contra hpruned
    obtain ⟨rfl, hrun⟩ : k = keyID ∧ ctx.isRunning a = false := by simpa using hpruned
    exact hsafe ⟨a, halive, hreg, hrun⟩

/-- Every actor of the set is in the list of the key once, and no other is. -/
def Exact (reg : Registry) (r : Replicator V W) : Prop :=
  ∀ k a, (r.watchersOf k).count a = (reg k a).toNat

open Replicator

/-- Moving the last entry into the place of the first occurrence removes this occurrence. -/
lemma removeFirst_perm (watchers : List ActorID) (actorID : ActorID) :
    (removeFirst watchers actorID).Perm (watchers.erase actorID) := by
  by_cases hmem : actorID ∈ watchers
  · obtain ⟨pre, post, hpre, rfl, herase⟩ := exists_erase_eq hmem
    have hidx : (pre ++ actorID :: post).findIdx? (· == actorID) = some pre.length := by
      have hskip : pre.findIdx? (· == actorID) = none :=
        List.findIdx?_eq_none_iff.mpr fun w hw => by
          simpa using fun h : w = actorID => hpre (h ▸ hw)
      rw [List.findIdx?_append, hskip]
      simp [List.findIdx?_cons]
    rw [herase, removeFirst, hidx]
    rcases eq_nil_or_concat post with rfl | ⟨post, last, rfl⟩
    · simp
    · have hset : (pre ++ actorID :: (post ++ [last])).set pre.length last =
          (pre ++ last :: post) ++ [last] := by simp
      have hlast : (pre ++ actorID :: (post ++ [last])).getLast? = some last := by
        rw [← cons_append, ← append_assoc, List.getLast?_concat]
      rw [concat_eq_append, hlast]
      simp only [hset, dropLast_concat]
      exact (perm_middle.trans (perm_append_singleton last (pre ++ post)).symm).trans
        (by rw [append_assoc])
  · have hidx : watchers.findIdx? (· == actorID) = none :=
      List.findIdx?_eq_none_iff.mpr fun w hw => by
        simpa using fun h : w = actorID => hmem (h ▸ hw)
    rw [removeFirst, hidx, erase_of_not_mem hmem]

/-- An actor that is at most once in the list is not in it after its removal. -/
lemma count_removeFirst {watchers : List ActorID} {b : Bool} {a : ActorID}
    (h : watchers.count a = b.toNat) (actorID : ActorID) :
    (removeFirst watchers actorID).count a = (b && !(a = actorID : Bool)).toNat := by
  rw [(removeFirst_perm watchers actorID).count_eq, count_erase, h]
  by_cases ha : a = actorID
  · subst ha
    cases b <;> simp
  · have hne : (actorID == a) = false := by simpa using Ne.symm ha
    simp [ha, hne]

namespace Exact
variable {reg : Registry} {r : Replicator V W}

section
variable (h : Exact reg r)
include h

lemma subscribe {ctx : Context W} {key : Key} {sender : ActorID}
    (hsender : ctx.sender = some sender) (hnew : reg key.id sender = false) :
    Exact (Registry.step (V := V) reg (.subscribe ctx key)) (r.handleSubscribe ctx key).1 := by
  intro k a
  simp only [handleSubscribe, hsender, Registry.step, watchersOf, lookup_insert_ite]
  by_cases hk : k = key.id
  · subst hk
    have hcount := h key.id a
    rw [watchersOf] at hcount
    by_cases ha : sender = a
    · subst ha
      simp [hcount, hnew]
    · simp [hcount, ha]
  · simpa [hk, watchersOf] using h k a

lemma unsubscribe {ctx : Context W} {key : Key} {sender : ActorID}
    (hsender : ctx.sender = some sender) :
    Exact (Registry.step (V := V) reg (.unsubscribe ctx key)) (r.handleUnsubscribe ctx key).1 := by
  intro k a
  have hcount := count_removeFirst (h k a) sender
  have hold := h k a
  simp only [handleUnsubscribe, hsender, removeWatcher, Registry.step, watchersOf] at hcount hold ⊢
  cases hlookup : r.watchers.lookup key.id with
  | none =>
    by_cases hk : k = key.id
    · subst hk
      rw [hlookup] at hold
      have hreg : reg key.id a = false := by simpa using hold.symm
      simp [hlookup, hreg]
    · simpa [hk] using hold
  | some watchers =>
    simp only [lookup_insert_ite]
    by_cases hk : k = key.id
    · subst hk
      rw [hlookup] at hcount
      simpa [eq_comm] using hcount
    · simpa [hk] using hold

lemma terminated (actorID : ActorID) :
    Exact (Registry.step (V := V) (W := W) reg (.terminated actorID))
      (r.handleTerminated actorID).1 := by
  intro k a
  have hcount := count_removeFirst (h k a) actorID
  simp only [handleTerminated, Registry.step, watchersOf, lookup_collect] at hcount ⊢
  rw [← hcount]
  by_cases hk : k ∈ r.watchers.keys
  · rw [if_pos hk]
    split_ifs with hlen
    · rw [length_eq_zero_iff.mp hlen, getD_none]
    · rfl
  · have hnone : r.watchers.lookup k = none := AList.lookup_eq_none.mpr hk
    rw [if_neg hk, hnone]
    rfl

lemma change (ctx : Context W) (keyID : String) (data : V) :
    Exact (Registry.prune reg (.change ctx keyID data)) (r.notifyChanged ctx keyID data).1 := by
  intro k a
  have hold := h k a
  simp only [notifyChanged, Registry.prune, watchersOf] at hold ⊢
  by_cases hk : k = keyID
  · subst hk
    cases hlookup : r.watchers.lookup k with
    | none =>
      rw [hlookup] at hold
      have hreg : reg k a = false := by simpa using hold.symm
      simp [hlookup, hreg]
    | some watchers =>
      rw [hlookup, getD_some] at hold
      have hcount : (watchers.filter ctx.isRunning).count a =
          (reg k a && ctx.isRunning a).toNat := by
        cases hrun : ctx.isRunning a with
        | true => rw [count_filter hrun, hold, Bool.and_true]
        | false =>
          rw [Bool.and_false]
          exact count_eq_zero.mpr fun hmem => by simp [hrun] at hmem
      simp only [decide_true, Bool.not_true, Bool.false_or]
      split_ifs with hlen
      · rw [AList.lookup_erase, getD_none, ← hcount, length_eq_zero_iff.mp hlen]
      · rw [AList.lookup_insert, getD_some, hcount]
  · cases hlookup : r.watchers.lookup keyID with
    | none => simpa [hk] using hold
    | some watchers =>
      simp only
      split_ifs
      · simpa [hk, lookup_erase_ite] using hold
      · simpa [hk, lookup_insert_ite] using hold

lemma step (e : WatchEvent V W)
    (hnew : ∀ ctx key a, e = .subscribe ctx key → ctx.sender = some a → reg key.id a = false) :
    Exact (reg.prune e) (r.watchStep e).1 := by
  cases e with
  | subscribe ctx key =>
    cases hsender : ctx.sender with
    | none => simpa [Exact, watchStep, handleSubscribe, Registry.prune, Registry.step, hsender]
    | some sender => exact h.subscribe hsender (hnew ctx key sender rfl hsender)
  | unsubscribe ctx key =>
    cases hsender : ctx.sender with
    | none => simpa [Exact, watchStep, handleUnsubscribe, Registry.prune, Registry.step, hsender]
    | some sender => exact h.unsubscribe hsender
  | terminated actorID => exact h.terminated actorID
  | change ctx keyID data => exact h.change ctx keyID data

end
end Exact

/-- The message tells the actor of a change. -/
def Effect.tellsChange (a : ActorID) : Effect V W → Bool
  | .changed watcher _ => watcher = a
  | _ => false

lemma exists_kept {alive : ActorID → Prop} {r : Replicator V W}
    (hstart : Exact (fun _ _ => false) r) (events : List (WatchEvent V W))
    (hsafe : ∀ past e, past ++ [e] <+: events → ¬(registered past).Spoils alive e) :
    ∃ kept, Keeps alive (registered events) kept ∧ Exact kept (r.watchRun events) := by
  induction events using reverseRecOn with
  | nil => exact ⟨_, fun _ _ => ⟨id, fun _ => id⟩, hstart⟩
  | append_singleton events e ih =>
    obtain ⟨kept, hkeeps, hexact⟩ :=
      ih fun past e' hpast => hsafe past e' (hpast.trans (prefix_append _ _))
    have hsafe := hsafe events e prefix_rfl
    refine ⟨kept.prune e, ?_, ?_⟩
    · rw [registered, foldl_concat]
      exact hkeeps.step hsafe
    · rw [watchRun, foldl_concat]
      refine hexact.step e fun ctx key a he hsender => ?_
      subst he
      by_contra hkept
      exact hsafe ⟨a, hsender, (hkeeps key.id a).1 (by simpa using hkept)⟩

/-- If no actor subscribes to a key it is registered for, and a change finds the registered actors
running that live, then the watchers of a key are registered for it, all registered actors that live
are watchers, and a change is told to each actor at most once. -/
theorem watchers_exact (nodeID : String) (config : Config) (dc : DataCenter) (hasTopicActor : Bool)
    (alive : ActorID → Prop) (events : List (WatchEvent V W))
    (hsafe : ∀ past e, past ++ [e] <+: events → ¬(registered past).Spoils alive e) :
    let r := (newReplicator (V := V) (W := W) nodeID config dc hasTopicActor).watchRun events
    (∀ k a, (a ∈ r.watchersOf k → registered events k a = true) ∧
      (alive a → registered events k a = true → a ∈ r.watchersOf k)) ∧
    ∀ ctx keyID data a, (r.notifyChanged ctx keyID data).2.countP (Effect.tellsChange a) ≤ 1 := by
  intro r
  have hstart : Exact (fun _ _ => false)
      (newReplicator (V := V) (W := W) nodeID config dc hasTopicActor) := fun _ _ => rfl
  obtain ⟨kept, hkeeps, hexact⟩ := exists_kept hstart events hsafe
  have hmem (k a) : a ∈ r.watchersOf k ↔ kept k a = true := by
    rw [← count_pos_iff, hexact k a]
    cases kept k a <;> simp
  refine ⟨fun k a => ?_, fun ctx keyID data a => ?_⟩
  · rw [hmem]
    exact hkeeps k a
  · have hcount := hexact keyID a
    simp only [watchersOf, notifyChanged] at hcount ⊢
    cases hlookup : r.watchers.lookup keyID with
    | none => exact Nat.zero_le 1
    | some watchers =>
      rw [hlookup, getD_some] at hcount
      rw [countP_map]
      calc (watchers.filter ctx.isRunning).countP _ ≤ watchers.countP _ :=
            filter_sublist.countP_le
        _ = watchers.count a := rfl
        _ ≤ 1 := hcount ▸ Bool.toNat_le _

/-- A message of the actor, at a moment when every actor runs. -/
def messageFrom (sender : ActorID) : Context Unit where
  sender := some sender
  now := 0
  peers := none
  draw := id
  remoteLookup _ := none
  remoteAsk _ _ := none
  isRunning _ := true
  isLeader := false

/-- A replicator of a cluster without data centers. -/
def localReplicator : Replicator Unit Unit := newReplicator "n" ⟨0, false, false⟩ ⟨"", "", ""⟩ false

/-- One actor subscribes, unsubscribes and subscribes again. Another one subscribes and has stopped
when the key changes. -/
def twoWatchers : List (WatchEvent Unit Unit) :=
  [.subscribe (messageFrom "a") ⟨"k", .flag⟩, .unsubscribe (messageFrom "a") ⟨"k", .flag⟩,
    .subscribe (messageFrom "a") ⟨"k", .flag⟩, .subscribe (messageFrom "b") ⟨"k", .flag⟩,
    .change { messageFrom "a" with isRunning := (· = "a") } "k" ()]

theorem watchers_exact_twoWatchers :
    "a" ∈ (localReplicator.watchRun twoWatchers).watchersOf "k" := by
  refine ((watchers_exact "n" _ _ _ (· = "a") twoWatchers fun past e hpast => ?_).1 "k" "a").2 rfl
    (by decide +kernel)
  obtain ⟨rest, hrest⟩ := hpast
  have hlt : past.length < 5 := by
    have hlength := congrArg length hrest
    simp [twoWatchers] at hlength
    omega
  have htake : past = twoWatchers.take past.length := by simp [← hrest]
  have hnext : twoWatchers[past.length]? = some e := by simp [← hrest]
  generalize past.length = k at hlt htake hnext
  subst htake
  interval_cases k <;> cases hnext <;>
    simp [Registry.Spoils, registered, Registry.step, twoWatchers, messageFrom]

/-- An actor that subscribes twice is told of a change twice, and is a watcher still when it has
unsubscribed. One that does not run when the key changes is a watcher no longer. -/
theorem subscribe_twice :
    ((localReplicator.watchRun [.subscribe (messageFrom "a") ⟨"k", .flag⟩,
        .subscribe (messageFrom "a") ⟨"k", .flag⟩]).notifyChanged (messageFrom "a") "k" ()).2.countP
      (Effect.tellsChange "a") = 2 ∧
    "a" ∈ (localReplicator.watchRun [.subscribe (messageFrom "a") ⟨"k", .flag⟩,
      .subscribe (messageFrom "a") ⟨"k", .flag⟩,
      .unsubscribe (messageFrom "a") ⟨"k", .flag⟩]).watchersOf "k" ∧
    "a" ∉ (localReplicator.watchRun [.subscribe (messageFrom "a") ⟨"k", .flag⟩,
      .change { messageFrom "b" with isRunning := (· = "b") } "k" ()]).watchersOf "k" := by
  decide +kernel

end GoAkt.Replication
