import GoAkt.Interleavings

/-!
# Spawning a cluster singleton

A singleton is spawned on the leader, or on the oldest node with the singleton's role; a call
on another node delegates to it. There the kind is reserved in the cluster registry, the name
is checked, the actor is started and its record is handed to the replicator. Around these
steps a retry layer decides whether an error is final.

All calls are for one kind and role, from any nodes and under any names, and run at the same
time. A step is one call of the registry, of the remote node or of a local function; its
`fault` tells that it fails, or for the decisions of the retry layer that the context of the
call is done. Records of other actors come and go in the registry at any time. The registry
knows a reservation only as a key; which call made it is bookkeeping, as are the calls that a
call has delegated.
-/
namespace GoAkt.Actor
open Option GoAkt.Interleavings Function

/-- The errors that the retry layer tells apart, and any other. -/
inductive SpawnError
  | systemNotStarted
  | clusterDisabled
  | singletonAlreadyExists
  | actorAlreadyExists
  | canceled
  | deadlineExceeded
  | quorum
  | leaderNotFound
  | engineNotRunning
  | noRoleMembers
  | remoteSendFailure
  | requestTimeout
  | addressNotFound
  | invalidResponse
  | networkTimeout
  | connectionRefused
  | other
deriving DecidableEq

def shouldRetrySpawnSingleton : SpawnError → Bool
  | .quorum | .leaderNotFound | .engineNotRunning | .noRoleMembers | .remoteSendFailure
  | .requestTimeout | .addressNotFound | .invalidResponse | .deadlineExceeded | .networkTimeout
  | .connectionRefused => true
  | _ => false

/-- The error that the caller gets for an error on the remote node. An "already exists" is
recognised by its text, which mentions a singleton also when the name of the actor does. -/
def wireError (mentionsSingleton : Bool) : SpawnError → SpawnError
  | .singletonAlreadyExists => .singletonAlreadyExists
  | .actorAlreadyExists =>
    if mentionsSingleton then .singletonAlreadyExists else .actorAlreadyExists
  | .quorum => .remoteSendFailure
  | _ => .other

/-- A running singleton, with the call that started it. -/
structure SingletonPID (τ ν : Type*) where
  creator : τ
  node : ν
  name : String
deriving DecidableEq

/-- What the registry keeps of an actor. -/
structure ActorRecord where
  singleton : Bool
  kind : String
  role : String
deriving DecidableEq

/-- `ok none` is a nil PID without an error. -/
inductive SpawnResult (τ ν : Type*)
  | ok (pid : Option (SingletonPID τ ν))
  | error (err : SpawnError)
deriving DecidableEq

/-- The place of a call. -/
inductive SpawnPlace (τ ν : Type*)
  | idle
  | start
  | resolve
  -- spawnSingletonOnLocal
  | reserve
  | checkName
  | configure
  | publish (pid : SingletonPID τ ν)
  | release (err : SpawnError)
  -- RemoteSpawn, executed by another call
  | delegated (call : τ)
  -- retrySpawnSingleton
  | failed (err : SpawnError)
  | getActor (err : SpawnError)
  | lookupKind (err : SpawnError)
  | backoff (err : SpawnError)
  | returned (result : SpawnResult τ ν)
deriving DecidableEq

open SpawnPlace

/-- Between its reservation and its return or the release of it. -/
def SpawnPlace.owning {τ ν : Type*} : SpawnPlace τ ν → Bool
  | .checkName | .configure | .publish _ | .release _ => true
  | _ => false

/-- The places at which a call depends on a started singleton or on another call. -/
def SpawnPlace.settled {τ ν : Type*} : SpawnPlace τ ν → Bool
  | .publish _ | .delegated _ | .returned _ => true
  | _ => false

structure Singletons (τ ν : Type*) where
  reservation : Option τ
  actors : String → Option ActorRecord
  running : List (SingletonPID τ ν)
  place : τ → SpawnPlace τ ν
  node : τ → ν
  name : τ → String
  parent : τ → Option τ

namespace Singletons
variable {τ ν : Type*} [DecidableEq τ]

/-- Where a call finds that the singleton belongs. -/
inductive Target (τ ν : Type*)
  | unknown (err : SpawnError)
  | here
  | there (node : ν) (call : τ)

/-- `replicateKind` is the replicator's `PutKind` for a singleton that was published. -/
inductive Event (τ ν : Type*)
  | spawnSingleton (t : τ) (node : ν) (name : String)
  | resolve (t : τ) (target : Target τ ν)
  | step (t : τ) (fault : Option SpawnError)
  | replicateKind (t : τ)
  | putActor (name : String) (record : ActorRecord)
  | removeActor (name : String)

variable (s : Singletons τ ν)

def goto (t : τ) (place : SpawnPlace τ ν) : Singletons τ ν :=
  { s with place := update s.place t place }

def enter (t : τ) (node : ν) (name : String) : Singletons τ ν :=
  { s.goto t .start with
    node := update s.node t node
    name := update s.name t name }

/-- The actor that a call starts, if nothing fails. -/
def configPID (t : τ) : SingletonPID τ ν := ⟨t, s.node t, s.name t⟩

/-- The retrier tries again after an error it may retry, and stops at any other. -/
def retryOrStop (t : τ) (err : SpawnError) : Singletons τ ν :=
  s.goto t (if shouldRetrySpawnSingleton err then .backoff err else .returned (.error err))

/-- The first decision about an error, with the error of the context if it is done. -/
def spawnSingletonRetryError (t : τ) (err : SpawnError)
    (done : Option SpawnError) : Singletons τ ν :=
  if err = .singletonAlreadyExists then s.goto t (.returned (.error err))
  else match done with
    | some ctxErr => s.goto t (.returned (.error ctxErr))
    | none =>
      if err = .actorAlreadyExists then
        s.goto t (if (s.name t).toList.all Char.isWhitespace then .lookupKind err
          else .getActor err)
      else s.retryOrStop t err

/-- The next step of a call. -/
def act (kind role : String) (mentionsSingleton : String → Bool) (s : Singletons τ ν) (t : τ)
    (fault : Option SpawnError) : Option (Singletons τ ν) :=
  match s.place t, fault with
  -- the system does not run or is not in a cluster, or the number of retries is too large
  | .start, some err => some (s.goto t (.returned (.error err)))
  | .start, none => some (s.goto t .resolve)
  | .reserve, some err => some (s.goto t (.failed err))
  | .reserve, none =>
    match s.reservation with
    | some _ => some (s.goto t (.failed .singletonAlreadyExists))
    | none => some ({ s with reservation := some t }.goto t .checkName)
  | .checkName, some err => some (s.goto t (.release err))
  | .checkName, none =>
    some (s.goto t (if (s.actors (s.name t)).isSome then .release .actorAlreadyExists
      else .configure))
  | .configure, some err => some (s.goto t (.release err))
  | .configure, none =>
    let pid := s.configPID t
    some ({ s with running := s.running ++ [pid] }.goto t (.publish pid))
  -- the actor is started and in the tree, and nothing stops it
  | .publish _, some err => some (s.goto t (.release err))
  | .publish pid, none => some (s.goto t (.returned (.ok (some pid))))
  -- an error of `RemoveKind` is discarded
  | .release err, some _ => some (s.goto t (.failed err))
  | .release err, none => some ({ s with reservation := none }.goto t (.failed err))
  | .delegated _, some err => some (s.goto t (.failed err))
  | .delegated call, none =>
    match s.place call with
    | .returned (.ok (some pid)) => some (s.goto t (.returned (.ok (some pid))))
    -- the ID of a nil PID is the empty address
    | .returned (.ok none) => some (s.goto t (.failed .invalidResponse))
    | .returned (.error err) =>
      some (s.goto t (.failed (wireError (mentionsSingleton (s.name t)) err)))
    | _ => none
  | .failed err, done => some (s.spawnSingletonRetryError t err done)
  | .getActor _, some err => some (s.retryOrStop t err)
  | .getActor err, none =>
    match s.actors (s.name t) with
    | some existing =>
      some (s.goto t (.returned (if existing = ⟨true, kind, role⟩ then .ok none else .error err)))
    | none => some (s.goto t (.lookupKind err))
  | .lookupKind _, some err => some (s.retryOrStop t err)
  | .lookupKind err, none =>
    some (s.goto t (if s.reservation.isSome then .returned (.ok none) else .backoff err))
  | .backoff _, none => some (s.goto t .resolve)
  | .backoff _, some err => some (s.goto t (.returned (.error err)))
  | _, _ => none

def step (kind role : String) (mentionsSingleton : String → Bool) (s : Singletons τ ν) :
    Event τ ν → Option (Singletons τ ν)
  | .spawnSingleton t node name =>
    match s.place t with
    | .idle => some (s.enter t node name)
    | _ => none
  | .resolve t target =>
    match s.place t, target with
    | .resolve, .unknown err => some (s.goto t (.failed err))
    | .resolve, .here => some (s.goto t .reserve)
    | .resolve, .there node call =>
      match s.place call with
      | .idle =>
        some { (s.enter call node (s.name t)).goto t (.delegated call) with
          parent := update s.parent call (some t) }
      | _ => none
    | _, _ => none
  | .step t fault => s.act kind role mentionsSingleton t fault
  | .replicateKind t =>
    match s.place t with
    | .returned (.ok (some pid)) =>
      some { s with reservation := s.reservation.or (some pid.creator) }
    | _ => none
  | .putActor name record => some { s with actors := update s.actors name (some record) }
  | .removeActor name => some { s with actors := update s.actors name none }

def system (τ : Type*) {ν : Type*} [DecidableEq τ] (node : ν) (kind role : String)
    (mentionsSingleton : String → Bool) : System (Singletons τ ν) (Event τ ν) where
  start :=
    { reservation := none, actors := fun _ => none, running := [], place := fun _ => .idle
      node := fun _ => node, name := fun _ => "", parent := fun _ => none }
  step := step kind role mentionsSingleton

/-- The call works for the other, directly or through further calls. -/
def OnBehalf : τ → τ → Prop := Relation.ReflTransGen fun t call => s.parent call = some t

/-- The steps that go wrong: publishing a started singleton fails, or the release of the kind; a
call gives up on another that has not failed; a name conflict is taken for success. -/
def Hazard (kind role : String) (s : Singletons τ ν) : Event τ ν → Prop
  | .step t fault =>
    match s.place t with
    | .publish _ | .release _ => fault ≠ none
    | .delegated call => fault ≠ none ∧ ∀ err, s.place call ≠ .returned (.error err)
    | .getActor _ => fault = none ∧ s.actors (s.name t) = some ⟨true, kind, role⟩
    | .lookupKind _ => fault = none ∧ s.reservation.isSome
    | _ => False
  | _ => False

/-- The reservation belongs to one call, which is on its way or has returned the running
singleton, and a call leaves another only when it is done with it. -/
structure Sound (s : Singletons τ ν) : Prop where
  owns : ∀ t, (s.place t).owning = true → s.reservation = some t
  owner : ∀ t, s.reservation = some t →
    (s.place t).owning = true ∨ ∃ pid ∈ s.running, s.place t = .returned (.ok (some pid))
  started : ∀ t pid, s.place t = .publish pid → pid ∈ s.running
  held : ∀ pid ∈ s.running, s.reservation = some pid.creator ∧
    (s.place pid.creator = .publish pid ∨ s.place pid.creator = .returned (.ok (some pid)))
  few : s.running.length ≤ 1
  result : ∀ t pid, s.place t = .returned (.ok pid) → ∃ p ∈ s.running, pid = some p
  child : ∀ t call, s.parent call = some t → s.place t = .delegated call ∨
    (∃ err, s.place call = .returned (.error err)) ∨ ∃ pid, s.place t = .returned (.ok pid)

namespace Sound
variable {s : Singletons τ ν} {t : τ} {place : SpawnPlace τ ν}

/-- A call that goes on has returned in no other state. -/
lemma child_update (h : Sound s) (hreturned : ∀ result, s.place t ≠ .returned result)
    (hchild : ∀ call, s.place t = .delegated call →
      (∃ err, s.place call = .returned (.error err)) ∨ ∃ pid, place = .returned (.ok pid))
    (t' call : τ) (hparent : s.parent call = some t') :
    update s.place t place t' = .delegated call ∨
      (∃ err, update s.place t place call = .returned (.error err)) ∨
      ∃ pid, update s.place t place t' = .returned (.ok pid) := by
  have herror : ∀ err, s.place call = .returned (.error err) →
      update s.place t place call = .returned (.error err) := fun err hcall =>
    (update_of_ne (fun heq => hreturned _ (heq ▸ hcall)) ..).trans hcall
  rcases h.child t' call hparent with hdel | ⟨err, hcall⟩ | ⟨pid, hret⟩
  · by_cases heq : t' = t
    · rw [heq, update_self]
      rcases hchild call (heq ▸ hdel) with ⟨err, hcall⟩ | hok
      · exact .inr (.inl ⟨err, herror err hcall⟩)
      · exact .inr (.inr hok)
    · rw [update_of_ne heq]
      exact .inl hdel
  · exact .inr (.inl ⟨err, herror err hcall⟩)
  · rw [update_of_ne fun heq => hreturned _ (heq ▸ hret)]
    exact .inr (.inr ⟨pid, hret⟩)

/-- A call that makes no reservation goes on, and keeps its own unless it returns the running
singleton. -/
lemma goto (h : Sound s) {old : SpawnPlace τ ν} (hold : s.place t = old)
    (howning : place.owning = true → old.owning = true)
    (hdone : old.owning = true → place.owning = true ∨
      ∃ pid ∈ s.running, place = .returned (.ok (some pid)))
    (hpublish : ∀ pid, place ≠ .publish pid)
    (hkeep : ∀ pid, old = .publish pid → place = .returned (.ok (some pid)))
    (hresult : ∀ pid, place = .returned (.ok pid) → ∃ p ∈ s.running, pid = some p)
    (hreturned : ∀ result, old ≠ .returned result)
    (hchild : ∀ call, old = .delegated call →
      (∃ err, s.place call = .returned (.error err)) ∨ ∃ pid, place = .returned (.ok pid)) :
    Sound (s.goto t place) := by
  subst hold
  have hself : (s.goto t place).place t = place := update_self ..
  have hother : ∀ t', t' ≠ t → (s.goto t place).place t' = s.place t' :=
    fun t' hne => update_of_ne hne ..
  refine ⟨fun t' hown => ?_, fun t' hres => ?_, fun t' pid hpub => ?_, fun pid hpid => ?_, h.few,
    fun t' pid hret => ?_, h.child_update hreturned hchild⟩
  · by_cases heq : t' = t
    · rw [heq, hself] at hown
      exact heq ▸ h.owns t (howning hown)
    · rw [hother t' heq] at hown
      exact h.owns t' hown
  · by_cases heq : t' = t
    · rw [heq, hself]
      rcases h.owner t (heq ▸ hres) with hown | ⟨pid, -, hret⟩
      · exact hdone hown
      · exact absurd hret (hreturned _)
    · rw [hother t' heq]
      exact h.owner t' hres
  · by_cases heq : t' = t
    · rw [heq, hself] at hpub
      exact absurd hpub (hpublish pid)
    · rw [hother t' heq] at hpub
      exact h.started t' pid hpub
  · obtain ⟨hres, hplace⟩ := h.held pid hpid
    refine ⟨hres, ?_⟩
    by_cases heq : pid.creator = t
    · rw [heq, hself]
      rcases hplace with hpub | hret
      · exact .inr (hkeep pid (heq ▸ hpub))
      · exact absurd (heq ▸ hret) (hreturned _)
    · rw [hother _ heq]
      exact hplace
  · by_cases heq : t' = t
    · rw [heq, hself] at hret
      exact hresult pid hret
    · rw [hother t' heq] at hret
      exact h.result t' pid hret

/-- Steps between places that have to do neither with a started singleton nor with another
call. -/
lemma forward (h : Sound s) {old : SpawnPlace τ ν} (hold : s.place t = old)
    (hquiet : old.settled = false)
    (hplain : place.settled = false ∨ ∃ err, place = .returned (.error err))
    (howning : place.owning = old.owning) : Sound (s.goto t place) := by
  refine h.goto hold (fun hown => howning ▸ hown) (fun hown => .inl (howning.trans hown))
    (fun pid hpub => ?_) (fun pid hpub => ?_) (fun pid hret => ?_) (fun result hret => ?_)
    (fun call hdel => ?_)
  · rcases hplain with hplain | ⟨err, rfl⟩
    · exact nomatch hplain.symm.trans (congrArg settled hpub)
    · exact nomatch hpub
  · exact nomatch hquiet.symm.trans (congrArg settled hpub)
  · rcases hplain with hplain | ⟨err, rfl⟩
    · exact nomatch hplain.symm.trans (congrArg settled hret)
    · exact nomatch hret
  · exact nomatch hquiet.symm.trans (congrArg settled hret)
  · exact nomatch hquiet.symm.trans (congrArg settled hdel)

lemma retryOrStop (h : Sound s) {old : SpawnPlace τ ν} (hold : s.place t = old)
    (hquiet : old.settled = false) (howning : old.owning = false) (err : SpawnError) :
    Sound (s.retryOrStop t err) := by
  unfold Singletons.retryOrStop
  split_ifs
  · exact h.forward hold hquiet (.inl rfl) howning.symm
  · exact h.forward hold hquiet (.inr ⟨err, rfl⟩) howning.symm

variable {err : SpawnError}

section
variable (h : Sound s)
include h

lemma spawnSingletonRetryError (hold : s.place t = .failed err)
    (done : Option SpawnError) : Sound (s.spawnSingletonRetryError t err done) := by
  unfold Singletons.spawnSingletonRetryError
  cases done with
  | some ctxErr =>
    dsimp only
    split_ifs
    · exact h.forward hold rfl (.inr ⟨err, rfl⟩) rfl
    · exact h.forward hold rfl (.inr ⟨ctxErr, rfl⟩) rfl
  | none =>
    dsimp only
    split_ifs
    · exact h.forward hold rfl (.inr ⟨err, rfl⟩) rfl
    · exact h.forward hold rfl (.inl rfl) rfl
    · exact h.forward hold rfl (.inl rfl) rfl
    · exact h.retryOrStop hold rfl rfl err

omit [DecidableEq τ] in
/-- While a call has a reservation and has not started its singleton, none runs. -/
lemma running_eq_nil (hplace : (s.place t).owning = true)
    (hpub : ∀ pid, s.place t ≠ .publish pid) : s.running = [] := by
  refine List.eq_nil_iff_forall_not_mem.mpr fun pid hpid => ?_
  obtain ⟨hres, hcreator⟩ := h.held pid hpid
  have heq : pid.creator = t := some.inj (hres.symm.trans (h.owns t hplace))
  rw [heq] at hcreator
  rcases hcreator with hcreator | hcreator
  · exact hpub pid hcreator
  · rw [hcreator] at hplace
    exact nomatch hplace

/-- The steps that make or drop the reservation are taken when no singleton runs. -/
lemma vacant (hnil : s.running = []) (hquiet : (s.place t).settled = false)
    (hplain : place.settled = false) {reservation : Option τ}
    (howns : ∀ t', (update s.place t place t').owning = true ↔ reservation = some t') :
    Sound ({ s with reservation }.goto t place) := by
  have hsettled : ∀ t' old, update s.place t place t' = old → old.settled = true →
      s.place t' = old := fun t' old hplace hold => by
    rcases eq_or_ne t' t with rfl | hne
    · rw [update_self] at hplace
      exact nomatch hplain.symm.trans ((congrArg _ hplace).trans hold)
    · rwa [update_of_ne hne] at hplace
  refine ⟨fun t' hown => (howns t').mp hown, fun t' hres => .inl ((howns t').mpr hres),
    fun t' pid hpub => h.started t' pid (hsettled t' _ hpub rfl), fun pid hpid => ?_, h.few,
    fun t' pid hret => h.result t' pid (hsettled t' _ hret rfl), h.child_update ?_ ?_⟩
  · exact absurd (hnil ▸ hpid) List.not_mem_nil
  · exact fun result hret => nomatch hquiet.symm.trans (congrArg settled hret)
  · exact fun call hdel => nomatch hquiet.symm.trans (congrArg settled hdel)

lemma reserve (hold : s.place t = .reserve) (hnone : s.reservation = none) :
    Sound ({ s with reservation := some t }.goto t .checkName) := by
  have hnil : s.running = [] := List.eq_nil_iff_forall_not_mem.mpr fun pid hpid =>
    nomatch hnone.symm.trans (h.held pid hpid).1
  refine h.vacant hnil (by rw [hold]; rfl) rfl fun t' => ?_
  rcases eq_or_ne t' t with rfl | hne
  · rw [update_self]
    exact ⟨fun _ => rfl, fun _ => rfl⟩
  · rw [update_of_ne hne]
    refine ⟨fun hown => ?_, fun hres => absurd (some.inj hres).symm hne⟩
    exact nomatch hnone.symm.trans (h.owns t' hown)

lemma release (hold : s.place t = .release err) :
    Sound ({ s with reservation := none }.goto t (.failed err)) := by
  have hown : (s.place t).owning = true := by rw [hold]; rfl
  have hnil := h.running_eq_nil hown fun pid hpub => nomatch hold.symm.trans hpub
  refine h.vacant hnil (by rw [hold]; rfl) rfl fun t' => ?_
  rcases eq_or_ne t' t with rfl | hne
  · rw [update_self]
    exact ⟨(nofun), (nofun)⟩
  · rw [update_of_ne hne]
    refine ⟨fun hown' => ?_, (nofun)⟩
    exact absurd (some.inj ((h.owns t' hown').symm.trans (h.owns t hown))) hne

lemma configure (hold : s.place t = .configure) :
    Sound ({ s with running := s.running ++ [s.configPID t] }.goto t
      (.publish (s.configPID t))) := by
  have hown : (s.place t).owning = true := by rw [hold]; rfl
  have hnil := h.running_eq_nil hown fun pid hpub => nomatch hold.symm.trans hpub
  have hres := h.owns t hown
  have hfree : ∀ t', t' ≠ t → (s.place t').owning = false := fun t' hne =>
    Bool.eq_false_iff.mpr fun hown' => hne (some.inj ((h.owns t' hown').symm.trans hres))
  have hself : update s.place t (.publish (s.configPID t)) t =
    .publish (s.configPID t) := update_self ..
  rw [hnil]
  refine ⟨fun t' hown' => ?_, fun t' hres' => .inl ?_, fun t' pid hpub => ?_, fun pid hpid => ?_,
    Nat.le_refl 1, fun t' pid hret => ?_, h.child_update ?_ ?_⟩
  · rcases eq_or_ne t' t with rfl | hne
    · exact hres
    · exact h.owns t' ((congrArg _ (update_of_ne hne ..)).symm.trans hown')
  · obtain rfl : t = t' := some.inj (hres.symm.trans hres')
    exact congrArg owning hself
  · rcases eq_or_ne t' t with rfl | hne
    · have hpid : publish _ = publish pid := hself.symm.trans hpub
      injection hpid with hpid
      exact List.mem_singleton.mpr hpid.symm
    · have hpub' : s.place t' = .publish pid := (update_of_ne hne ..).symm.trans hpub
      exact nomatch (hfree t' hne).symm.trans (congrArg owning hpub')
  · obtain rfl := List.mem_singleton.mp hpid
    exact ⟨hres, .inl hself⟩
  · rcases eq_or_ne t' t with rfl | hne
    · exact nomatch hself.symm.trans hret
    · obtain ⟨p, hp, -⟩ := h.result t' pid ((update_of_ne hne ..).symm.trans hret)
      exact absurd (hnil ▸ hp) List.not_mem_nil
  · exact fun result hret => nomatch hold.symm.trans hret
  · exact fun call hdel => nomatch hold.symm.trans hdel

lemma publish {pid : SingletonPID τ ν} (hold : s.place t = .publish pid) :
    Sound (s.goto t (.returned (.ok (some pid)))) := by
  have hpid := h.started t pid hold
  refine h.goto hold nofun (fun _ => .inr ⟨pid, hpid, rfl⟩) nofun (fun pid' hpub => ?_)
    (fun result hret => ?_) nofun nofun
  · injection hpub with heq
    rw [heq]
  · injection hret with hret
    injection hret with hret
    exact ⟨pid, hpid, hret.symm⟩

end

variable {call : τ}

/-- A call ends its wait for another that has failed. -/
lemma undelegate (h : Sound s) {err err' : SpawnError}
    (hold : s.place t = .delegated call) (hcall : s.place call = .returned (.error err')) :
    Sound (s.goto t (.failed err)) := by
  refine h.goto hold nofun nofun nofun nofun nofun nofun fun call' hdel => ?_
  injection hdel with heq
  exact .inl ⟨err', heq ▸ hcall⟩

/-- A call returns the singleton that another has returned to it. -/
lemma answer (h : Sound s) {pid : SingletonPID τ ν}
    (hold : s.place t = .delegated call) (hcall : s.place call = .returned (.ok (some pid))) :
    Sound (s.goto t (.returned (.ok (some pid)))) := by
  refine h.goto hold nofun nofun nofun nofun (fun result hret => ?_) nofun
    fun call' hdel => .inr ⟨some pid, rfl⟩
  injection hret with hret
  injection hret with hret
  exact hret ▸ h.result call _ hcall

lemma enter (h : Sound s) (hold : s.place t = .idle) (node : ν) (name : String) :
    Sound (s.enter t node name) := by
  have hgoto : Sound (s.goto t .start) := h.forward hold rfl (.inl rfl) rfl
  exact ⟨hgoto.owns, hgoto.owner, hgoto.started, hgoto.held, hgoto.few, hgoto.result, hgoto.child⟩

lemma delegate (h : Sound s) {node : ν} {name : String} (hold : s.place t = .resolve)
    (hcall : s.place call = .idle) : Sound { (s.enter call node name).goto t (.delegated call) with
      parent := update s.parent call (some t) } := by
  have hne : t ≠ call := by
    rintro rfl
    exact nomatch hold.symm.trans hcall
  have hplace : (s.enter call node name).place t = .resolve := (update_of_ne hne ..).trans hold
  have hgoto : Sound ((s.enter call node name).goto t (.delegated call)) :=
    (h.enter hcall node name).goto hplace nofun nofun nofun nofun nofun nofun nofun
  refine ⟨hgoto.owns, hgoto.owner, hgoto.started, hgoto.held, hgoto.few, hgoto.result,
    fun t' call' hparent => ?_⟩
  have hparent' : update s.parent call (some t) call' = some t' := hparent
  rcases eq_or_ne call' call with rfl | hother
  · rw [update_self] at hparent'
    obtain rfl := some.inj hparent'
    exact .inl (update_self ..)
  · rw [update_of_ne hother] at hparent'
    exact hgoto.child t' call' hparent'

variable {kind role : String} {mentionsSingleton : String → Bool} {s' : Singletons τ ν}

lemma act (h : Sound s) {fault : Option SpawnError}
    (hact : s.act kind role mentionsSingleton t fault = some s')
    (hsafe : ¬Hazard kind role s (.step t fault)) : Sound s' := by
  unfold Singletons.act at hact
  dsimp only [Hazard] at hsafe
  split at hact <;> try cases hact
  next err hold => exact h.forward hold rfl (.inr ⟨err, rfl⟩) rfl
  next hold => exact h.forward hold rfl (.inl rfl) rfl
  next err hold => exact h.forward hold rfl (.inl rfl) rfl
  next hold =>
    split at hact <;> cases hact
    · exact h.forward hold rfl (.inl rfl) rfl
    next hnone => exact h.reserve hold hnone
  next err hold => exact h.forward hold rfl (.inl rfl) rfl
  next hold =>
    split_ifs
    all_goals exact h.forward hold rfl (.inl rfl) rfl
  next err hold => exact h.forward hold rfl (.inl rfl) rfl
  next hold => exact h.configure hold
  next hold => rw [hold] at hsafe; exact absurd nofun hsafe
  next hold => exact h.publish hold
  next hold => rw [hold] at hsafe; exact absurd nofun hsafe
  next hold => exact h.release hold
  next call err hold =>
    rw [hold] at hsafe
    obtain ⟨err', hcall⟩ := not_forall_not.mp fun hnone => hsafe ⟨nofun, hnone⟩
    exact h.undelegate hold hcall
  next call hold =>
    split at hact <;> try cases hact
    next pid hcall => exact h.answer hold hcall
    next hcall => obtain ⟨p, -, hp⟩ := h.result call _ hcall; exact nomatch hp
    next hcall => exact h.undelegate hold hcall
  next hold => exact h.spawnSingletonRetryError hold _
  next hold => exact h.retryOrStop hold rfl rfl _
  next err hold =>
    rw [hold] at hsafe
    split at hact
    next existing hexisting =>
      have hne : existing ≠ ⟨true, kind, role⟩ := fun heq => hsafe ⟨rfl, heq ▸ hexisting⟩
      rw [if_neg hne] at hact
      cases hact
      exact h.forward hold rfl (.inr ⟨err, rfl⟩) rfl
    · cases hact
      exact h.forward hold rfl (.inl rfl) rfl
  next hold => exact h.retryOrStop hold rfl rfl _
  next err hold =>
    rw [hold] at hsafe
    rw [if_neg fun hsome => hsafe ⟨rfl, hsome⟩]
    exact h.forward hold rfl (.inl rfl) rfl
  next hold => exact h.forward hold rfl (.inl rfl) rfl
  next err hold => exact h.forward hold rfl (.inr ⟨err, rfl⟩) rfl

lemma step (h : Sound s) {e : Event τ ν}
    (hstep : s.step kind role mentionsSingleton e = some s') (hsafe : ¬Hazard kind role s e) :
    Sound s' := by
  cases e with dsimp only [Singletons.step] at hstep
  | spawnSingleton t node name =>
    split at hstep <;> cases hstep
    next hold => exact h.enter hold node name
  | resolve t target =>
    split at hstep <;> try cases hstep
    next hold => exact h.forward hold rfl (.inl rfl) rfl
    next hold => exact h.forward hold rfl (.inl rfl) rfl
    next node call hold =>
      split at hstep <;> cases hstep
      next hcall => exact h.delegate hold hcall
  | step t fault => exact h.act hstep hsafe
  | replicateKind t =>
    split at hstep
    next pid hret =>
      -- the singleton runs, so the kind is reserved already
      obtain ⟨p, hp, heq⟩ := h.result t _ hret
      have hres := (h.held p hp).1
      have hsame : s.reservation.or (some pid.creator) = s.reservation := by rw [hres]; rfl
      rw [hsame] at hstep
      cases hstep
      exact h
    · exact nomatch hstep
  | putActor name record | removeActor name =>
    cases hstep
    exact ⟨h.owns, h.owner, h.started, h.held, h.few, h.result, h.child⟩

omit [DecidableEq τ] in
/-- When a call has failed, so have those that worked for it. -/
lemma error_of_onBehalf (h : Sound s) (hbehalf : s.OnBehalf t call)
    (hreturned : s.place t = .returned (.error err)) :
    ∃ err', s.place call = .returned (.error err') := by
  induction hbehalf with
  | refl => exact ⟨err, hreturned⟩
  | @tail mid call _ hparent ih =>
    obtain ⟨err', hmid⟩ := ih
    rcases h.child mid call hparent with hdel | hcall | ⟨pid, hok⟩
    · exact nomatch hmid.symm.trans hdel
    · exact hcall
    · exact nomatch hmid.symm.trans hok

omit [DecidableEq τ] in
lemma nothing_left (h : Sound s) (hreturned : s.place t = .returned (.error err)) :
    s.reservation ≠ some t ∧ ∀ pid ∈ s.running, pid.creator ≠ t := by
  have hres : s.reservation ≠ some t := fun hres => by
    rcases h.owner t hres with hown | ⟨pid, -, hok⟩
    · exact nomatch (congrArg owning hreturned).symm.trans hown
    · exact nomatch hreturned.symm.trans hok
  exact ⟨hres, fun pid hpid heq => hres (heq ▸ (h.held pid hpid).1)⟩

lemma run {node : ν} {events : List (Event τ ν)}
    (hsafe : ¬(system τ node kind role mentionsSingleton).Took (Hazard kind role) events)
    (hrun : (system τ node kind role mentionsSingleton).run events = some s) : Sound s := by
  refine System.safe_invariant ?_ (fun s e s' h hstep hnot => h.step hstep hnot) hsafe hrun
  exact ⟨nofun, nofun, nofun, nofun, Nat.zero_le 1, nofun, nofun⟩

end Sound

variable {node : ν} {kind role : String} {mentionsSingleton : String → Bool}
  {events : List (Event τ ν)} {s : Singletons τ ν}

/-- In every run without a hazard at most one singleton is running and its kind is reserved, a
call that returns an error has left neither a singleton nor a reservation, itself or through
the calls it has delegated, and a call that returns no error returns the running singleton. -/
theorem singleton_all_or_nothing
    (hsafe : ¬(system τ node kind role mentionsSingleton).Took (Hazard kind role) events)
    (hrun : (system τ node kind role mentionsSingleton).run events = some s) :
    s.running.length ≤ 1 ∧ (s.running ≠ [] → s.reservation ≠ none) ∧
      (∀ t err, s.place t = .returned (.error err) → ∀ call, s.OnBehalf t call →
        s.reservation ≠ some call ∧ ∀ pid ∈ s.running, pid.creator ≠ call) ∧
      ∀ t pid, s.place t = .returned (.ok pid) → ∃ p ∈ s.running, pid = some p := by
  have hsound := Sound.run hsafe hrun
  refine ⟨hsound.few, fun hrunning hnone => ?_, fun t err hreturned call hbehalf => ?_,
    hsound.result⟩
  · obtain ⟨pid, hpid⟩ := List.exists_mem_of_ne_nil _ hrunning
    exact nomatch hnone.symm.trans (hsound.held pid hpid).1
  · obtain ⟨err', hcall⟩ := hsound.error_of_onBehalf hbehalf hreturned
    exact hsound.nothing_left hcall

/-- A test that no hazard passes. -/
def harmless (s : Singletons τ ν) : Event τ ν → Bool
  | .step t fault =>
    match s.place t with
    | .publish _ | .release _ | .delegated _ => fault.isNone
    | .getActor _ => fault.isSome || (s.actors (s.name t)).isNone
    | .lookupKind _ => fault.isSome || s.reservation.isNone
    | _ => true
  | _ => true

omit [DecidableEq τ] in
lemma not_hazard_of_harmless (s : Singletons τ ν) (e : Event τ ν) (htest : s.harmless e = true) :
    ¬Hazard kind role s e := by
  cases e with
  | step t fault =>
    dsimp only [harmless] at htest
    dsimp only [Hazard]
    split
    next hplace =>
      rw [hplace] at htest
      exact fun hfault => hfault (isNone_iff_eq_none.mp htest)
    next hplace =>
      rw [hplace] at htest
      exact fun hfault => hfault (isNone_iff_eq_none.mp htest)
    next hplace =>
      rw [hplace] at htest
      exact fun hazard => hazard.1 (isNone_iff_eq_none.mp htest)
    next hplace =>
      rintro ⟨rfl, hactor⟩
      rw [hplace, hactor] at htest
      exact nomatch htest
    next hplace =>
      rintro ⟨rfl, hsome⟩
      obtain ⟨t', hres⟩ := isSome_iff_exists.mp hsome
      rw [hplace, hres] at htest
      exact nomatch htest
    · exact not_false
  | _ => exact not_false

/-- A call on one node delegates to the leader, and a later one finds the kind reserved. -/
def delegateOne : List (Event ℕ ℕ) :=
  [.spawnSingleton 0 1 "counter", .step 0 none, .resolve 0 (.there 0 1), .step 1 none,
    .resolve 1 .here, .step 1 none, .step 1 none, .step 1 none, .step 1 none, .step 0 none,
    .replicateKind 1, .spawnSingleton 2 0 "counter", .step 2 none, .resolve 2 .here, .step 2 none,
    .step 2 none]

theorem singleton_all_or_nothing_delegateOne :
    ∃ s, (system ℕ 0 "counter" "" fun _ => false).run delegateOne = some s ∧
      s.place 0 = .returned (.ok (some ⟨1, 0, "counter"⟩)) ∧
      s.place 2 = .returned (.error .singletonAlreadyExists) ∧
      s.running.length ≤ 1 ∧ s.reservation ≠ some 2 := by
  obtain ⟨s, hrun, hsafe, hok, herror⟩ := System.exists_safe_run
    (system ℕ 0 "counter" "" fun _ => false) delegateOne
    (fun s => s.place 0 = .returned (.ok (some ⟨1, 0, "counter"⟩)) ∧
      s.place 2 = .returned (.error .singletonAlreadyExists)) not_hazard_of_harmless
    (by decide +kernel)
  obtain ⟨hfew, -, hleft, -⟩ := singleton_all_or_nothing hsafe hrun
  exact ⟨s, hrun, hok, herror, hfew, (hleft 2 _ herror 2 .refl).1⟩

/-- The name of the first call is taken. It has released its reservation when a second call
makes one, and the actor with the name is gone when the first looks for it. -/
def takenForSuccess : List (Event ℕ ℕ) :=
  [.putActor "counter" ⟨false, "other", ""⟩, .spawnSingleton 0 0 "counter", .step 0 none,
    .resolve 0 .here, .step 0 none, .step 0 none, .step 0 none, .spawnSingleton 1 0 "second",
    .step 1 none, .resolve 1 .here, .step 1 none, .removeActor "counter", .step 0 none,
    .step 0 none, .step 0 none]

/-- The actor does not start, and the registry does not answer to the release of the kind. A second
call finds the kind reserved. -/
def releaseFails : List (Event ℕ ℕ) :=
  [.spawnSingleton 0 0 "first", .step 0 none, .resolve 0 .here, .step 0 none, .step 0 none,
    .step 0 (some .other), .step 0 (some .quorum), .step 0 none, .spawnSingleton 1 0 "second",
    .step 1 none, .resolve 1 .here, .step 1 none, .step 1 none]

/-- A call gives up on the leader, which then starts the singleton. -/
def answerLost : List (Event ℕ ℕ) :=
  [.spawnSingleton 0 1 "counter", .step 0 none, .resolve 0 (.there 0 1), .step 1 none,
    .resolve 1 .here, .step 1 none, .step 1 none, .step 1 none, .step 1 none,
    .step 0 (some .requestTimeout), .step 0 none, .step 0 (some .requestTimeout)]

/-- A call returns a nil PID without an error. A call returns an error and its reservation stays, so
that no singleton can be spawned although none runs. And a call returns an error while the call that
worked for it has started the singleton. -/
theorem singleton_missing_or_left :
    ((system ℕ 0 "counter" "" fun _ => false).run takenForSuccess).map (fun s => s.place 0) =
        some (.returned (.ok none)) ∧
      ((system ℕ 0 "counter" "" fun _ => false).run releaseFails).map
          (fun s => (s.place 0, s.reservation, s.running, s.place 1)) =
        some (.returned (.error .other), some 0, [],
          .returned (.error .singletonAlreadyExists)) ∧
      ((system ℕ 0 "counter" "" fun _ => false).run answerLost).map
          (fun s => (s.place 0, s.parent 1, s.running)) =
        some (.returned (.error .requestTimeout), some 0, [⟨1, 0, "counter"⟩]) := by
  decide +kernel

end Singletons
end GoAkt.Actor
