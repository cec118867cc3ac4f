import GoAkt.Interleavings

/-!
# The reservation of a stopped singleton

A singleton is reserved in the cluster registry under its kind, or its kind and role. When it
stops, it tells the death watch and is then reset; the death watch takes it from the tree and
removes the reservation, if the PID is still marked as a singleton. When its node shuts down,
the death watch leaves the registry alone, and the cleanup at the end of the shutdown removes
the reservations of the actors that were registered when it began.

Any number of singletons of a node stop, the death watch handles their messages and the node
shuts down at the same time. A step is one operation on what they share. The calls of the
registry succeed.
-/
namespace GoAkt.Actor
open Option Finset GoAkt.Interleavings Function

def kindRoleSeparator : String := "::"

def kindRole (kind role : String) : String := kind ++ kindRoleSeparator ++ role

/-- A singleton, with its role trimmed; without a role it is empty. -/
structure SingletonKind where
  kind : String
  role : String

/-- The key of the reservation. -/
def SingletonKind.key (singleton : SingletonKind) : String :=
  if singleton.role = "" then singleton.kind else kindRole singleton.kind singleton.role

/-- Until it is reset, the PID is marked as a singleton. -/
inductive SingletonLife
  | running
  | told
  | reset
deriving DecidableEq

/-- The place of the death watch in the handling of a message. -/
inductive TerminatedPlace (ι : Type*)
  | idle
  | node (i : ι)
  | delete (i : ι)
  | check (i : ι)
  | removeActor (i : ι)
  | isSingleton (i : ι)
  | removeKind (i : ι)
deriving DecidableEq

/-- The singleton whose message is handled. -/
def TerminatedPlace.subject {ι : Type*} : TerminatedPlace ι → Option ι
  | .idle => none
  | .node i | .delete i | .check i | .removeActor i | .isSingleton i | .removeKind i => some i

/-- The cleanup of the cluster: not begun, the singletons whose kinds it still has to remove,
finished. -/
inductive CleanupPlace (ι : Type*)
  | waiting
  | removing (left : Finset ι)
  | finished
deriving DecidableEq

/-- `actorRefs` are the actors that the shutdown found in the tree. -/
structure SingletonNode (ι : Type*) where
  kinds : Finset String
  life : ι → SingletonLife
  tree : Finset ι
  mailbox : List ι
  deathWatch : TerminatedPlace ι
  stopping : Bool
  actorRefs : Option (Finset ι)
  cleanup : CleanupPlace ι

namespace SingletonNode
variable {ι : Type*} [DecidableEq ι] (singleton : ι → SingletonKind)

/-- The two steps of a stop, the parent's `deleteNode` after the stop it has directed, the
steps of the death watch, and those of the shutdown. -/
inductive Event (ι : Type*)
  | freeWatchers (i : ι)
  | reset (i : ι)
  | deleteNode (i : ι)
  | receive
  | handle
  | shutdown
  | localActors
  | cleanupCluster (isLeader : Bool)
  | removeKind (i : ι)
  | cleaned

variable (s : SingletonNode ι)

/-- The next step of the death watch. -/
def handle : Option (SingletonNode ι) :=
  match s.deathWatch with
  | .idle => none
  | .node i => some { s with deathWatch := if i ∈ s.tree then .delete i else .idle }
  | .delete i => some { s with tree := s.tree.erase i, deathWatch := .check i }
  | .check i => some { s with deathWatch := if s.stopping then .idle else .removeActor i }
  | .removeActor i => some { s with deathWatch := .isSingleton i }
  | .isSingleton i =>
    some { s with deathWatch := if s.life i = .reset then .idle else .removeKind i }
  | .removeKind i => some { s with kinds := s.kinds.erase (singleton i).key, deathWatch := .idle }

def step : Event ι → Option (SingletonNode ι)
  | .freeWatchers i =>
    allow (s.life i = .running)
      { s with life := update s.life i .told, mailbox := s.mailbox ++ [i] }
  | .reset i => allow (s.life i = .told) { s with life := update s.life i .reset }
  | .deleteNode i => allow (s.life i = .reset) { s with tree := s.tree.erase i }
  | .receive =>
    match s.deathWatch, s.mailbox with
    | .idle, i :: mailbox => some { s with deathWatch := .node i, mailbox }
    | _, _ => none
  | .handle => s.handle singleton
  | .shutdown => some { s with stopping := true }
  | .localActors =>
    allow (s.stopping = true ∧ s.actorRefs = none) { s with actorRefs := some s.tree }
  | .cleanupCluster isLeader =>
    match s.actorRefs, s.cleanup with
    | some actorRefs, .waiting =>
      some { s with cleanup := .removing (if isLeader then actorRefs else ∅) }
    | _, _ => none
  | .removeKind i =>
    match s.cleanup with
    | .removing left =>
      allow (i ∈ left)
        { s with kinds := s.kinds.erase (singleton i).kind, cleanup := .removing (left.erase i) }
    | _ => none
  | .cleaned =>
    match s.cleanup with
    | .removing left => allow (left = ∅) { s with cleanup := .finished }
    | _ => none

def system (kinds : Finset String) (tree : Finset ι) : System (SingletonNode ι) (Event ι) where
  start :=
    { kinds, life := fun _ => .running, tree, mailbox := [], deathWatch := .idle, stopping := false
      actorRefs := none, cleanup := .waiting }
  step := step singleton

/-- The cleanup of the cluster has to remove the reservation, or has done so. -/
def Swept (i : ι) : Prop := ∃ actorRefs, s.actorRefs = some actorRefs ∧ i ∈ actorRefs

/-- The reservation is there, and its removal is left to the death watch. -/
def AtStake (i : ι) : Prop := (singleton i).key ∈ s.kinds ∧ ¬s.Swept i

/-- The steps that go wrong: the parent deletes the node before the death watch has found it,
the death watch finds the node stopping or the PID reset, the cleanup is not that of the
leader, or it removes the kind for a singleton with a role. -/
def Hazard : Event ι → Prop
  | .deleteNode i => s.AtStake singleton i ∧ i ∈ s.tree ∧ s.deathWatch ≠ .delete i
  | .handle =>
    match s.deathWatch with
    | .check i => s.AtStake singleton i ∧ s.stopping = true
    | .isSingleton i => s.AtStake singleton i ∧ s.life i = .reset
    | _ => False
  | .cleanupCluster isLeader => isLeader = false ∧ ∃ i, s.Swept i ∧ (singleton i).key ∈ s.kinds
  | .removeKind i => (singleton i).role ≠ "" ∧ (singleton i).key ∈ s.kinds
  | _ => False

/-- All steps for a stopped singleton are done: its message is handled, or the shutdown of
its node is over. -/
def Done (i : ι) : Prop :=
  s.life i = .reset ∧ s.deathWatch.subject ≠ some i ∧
    (s.stopping = false ∧ i ∉ s.mailbox ∨ s.cleanup = .finished)

/-- A reservation at stake is on its way through the death watch, and the cleanup knows of
the others. -/
structure Sound (members : Finset ι) (s : SingletonNode ι) : Prop where
  watched : ∀ i ∈ members, s.AtStake singleton i →
    i ∈ s.tree ∨ s.deathWatch.subject = some i ∧ s.deathWatch ≠ .node i
  registered : ∀ i ∈ s.tree, s.life i = .running ∨ i ∈ s.mailbox ∨ s.deathWatch = .node i ∨
    s.deathWatch = .delete i
  refs : ∀ actorRefs, s.actorRefs = some actorRefs → s.tree ⊆ actorRefs
  swept : ∀ i, s.Swept i → (singleton i).key ∈ s.kinds →
    s.cleanup = .waiting ∨ ∃ left, s.cleanup = .removing left ∧ i ∈ left
  stopping : s.stopping = false → s.actorRefs = none
  begun : s.actorRefs = none → s.cleanup = .waiting

variable {singleton} {members : Finset ι} {s s' : SingletonNode ι}

namespace Sound

lemma freeWatchers (h : Sound singleton members s) (i : ι) :
    Sound singleton members
      { s with life := update s.life i .told, mailbox := s.mailbox ++ [i] } := by
  refine { h with registered := fun j hj => ?_ }
  by_cases hji : j = i
  · exact .inr (.inl (List.mem_append_right _ (List.mem_singleton.mpr hji)))
  · rcases h.registered j hj with hlife | hmailbox | hplace
    · exact .inl ((update_of_ne hji ..).trans hlife)
    · exact .inr (.inl (List.mem_append_left _ hmailbox))
    · exact .inr (.inr hplace)

variable {i : ι}

lemma reset (h : Sound singleton members s) (htold : s.life i = .told) :
    Sound singleton members { s with life := update s.life i .reset } := by
  refine { h with registered := fun j hj => ?_ }
  rcases h.registered j hj with hlife | hrest
  · have hji : j ≠ i := by
      rintro rfl
      exact nomatch htold.symm.trans hlife
    exact .inl ((update_of_ne hji ..).trans hlife)
  · exact .inr hrest

lemma deleteNode (h : Sound singleton members s) (hsafe : ¬Hazard singleton s (.deleteNode i)) :
    Sound singleton members { s with tree := s.tree.erase i } := by
  refine ⟨fun j hj hstake => ?_, fun j hj => h.registered j (mem_of_mem_erase hj),
    fun refs hrefs => (erase_subset i s.tree).trans (h.refs refs hrefs), h.swept,
    h.stopping, h.begun⟩
  rcases h.watched j hj hstake with htree | hplace
  · by_cases hji : j = i
    · subst hji
      have hdelete : s.deathWatch = .delete j := not_not.mp fun hne => hsafe ⟨hstake, htree, hne⟩
      exact .inr ⟨congrArg _ hdelete, hdelete.symm ▸ nofun⟩
    · exact .inl (mem_erase.mpr ⟨hji, htree⟩)
  · exact .inr hplace

section
omit [DecidableEq ι]

section
variable (h : Sound singleton members s)
include h

lemma receive {mailbox : List ι}
    (hidle : s.deathWatch = .idle) (hmailbox : s.mailbox = i :: mailbox) :
    Sound singleton members { s with deathWatch := .node i, mailbox } := by
  refine { h with watched := fun j hj hstake => .inl ?_, registered := fun j hj => ?_ }
  · rcases h.watched j hj hstake with htree | ⟨hsubject, -⟩
    · exact htree
    · rw [hidle] at hsubject
      exact nomatch hsubject
  · rcases h.registered j hj with hlife | hmem | hplace | hplace
    · exact .inl hlife
    · rw [hmailbox] at hmem
      rcases List.mem_cons.mp hmem with rfl | hmem
      · exact .inr (.inr (.inl rfl))
      · exact .inr (.inl hmem)
    · exact nomatch hidle.symm.trans hplace
    · exact nomatch hidle.symm.trans hplace

lemma removeKey (key : String) : Sound singleton members { s with kinds := s.kinds.erase key } :=
  ⟨fun i hi hstake => h.watched i hi ⟨mem_of_mem_erase hstake.1, hstake.2⟩, h.registered,
    h.refs, fun i hswept hkey => h.swept i hswept (mem_of_mem_erase hkey), h.stopping,
    h.begun⟩

/-- The death watch takes a step for a singleton that it has taken from the tree. -/
lemma advance {old place : TerminatedPlace ι} (hold : s.deathWatch = old)
    (hsubject : old.subject = some i) (hnode : old ≠ .node i) (hdelete : old ≠ .delete i)
    (hplace : place.subject = some i ∧ place ≠ .node i ∨ ¬s.AtStake singleton i) :
    Sound singleton members { s with deathWatch := place } := by
  subst hold
  refine { h with watched := fun j hj hstake => ?_, registered := fun j hj => ?_ }
  · rcases h.watched j hj hstake with htree | ⟨hsubject', -⟩
    · exact .inl htree
    · obtain rfl := some.inj (hsubject.symm.trans hsubject')
      exact .inr (hplace.resolve_right fun hnot => hnot hstake)
  · rcases h.registered j hj with hlife | hmem | hplace' | hplace'
    · exact .inl hlife
    · exact .inr (.inl hmem)
    · rw [hplace'] at hsubject
      obtain rfl := some.inj hsubject
      exact absurd hplace' hnode
    · rw [hplace'] at hsubject
      obtain rfl := some.inj hsubject
      exact absurd hplace' hdelete

end
end

section
variable (h : Sound singleton members s)
include h

lemma handle (hhandle : s.handle singleton = some s')
    (hsafe : ¬Hazard singleton s .handle) : Sound singleton members s' := by
  unfold SingletonNode.handle at hhandle
  dsimp only [Hazard] at hsafe
  split at hhandle <;> cases hhandle
  next i hplace =>
    have hwatched : ∀ j ∈ members, s.AtStake singleton j → j ∈ s.tree := fun j hj hstake => by
      rcases h.watched j hj hstake with htree | ⟨hsubject, hnode⟩
      · exact htree
      · rw [hplace] at hsubject hnode
        exact absurd (congrArg _ (some.inj hsubject)) hnode
    refine ⟨fun j hj hstake => .inl (hwatched j hj hstake), fun j hj => ?_, h.refs, h.swept,
      h.stopping, h.begun⟩
    rcases h.registered j hj with hlife | hmem | hnode | hdelete
    · exact .inl hlife
    · exact .inr (.inl hmem)
    · injection hplace.symm.trans hnode with hji
      subst hji
      exact .inr (.inr (.inr (if_pos hj)))
    · exact nomatch hplace.symm.trans hdelete
  next i hplace =>
    refine ⟨fun j hj hstake => ?_, fun j hj => ?_, fun refs hrefs => ?_, h.swept, h.stopping,
      h.begun⟩
    · by_cases hji : j = i
      · exact .inr ⟨congrArg some hji.symm, nofun⟩
      · rcases h.watched j hj hstake with htree | ⟨hsubject, -⟩
        · exact .inl (mem_erase.mpr ⟨hji, htree⟩)
        · rw [hplace] at hsubject
          exact absurd (some.inj hsubject).symm hji
    · obtain ⟨hji, htree⟩ := mem_erase.mp hj
      rcases h.registered j htree with hlife | hmem | hnode | hdelete
      · exact .inl hlife
      · exact .inr (.inl hmem)
      · exact nomatch hplace.symm.trans hnode
      · injection hplace.symm.trans hdelete with hij
        exact absurd hij.symm hji
    · exact (erase_subset i s.tree).trans (h.refs refs hrefs)
  next i hplace =>
    rw [hplace] at hsafe
    refine h.advance hplace rfl nofun nofun ?_
    split_ifs with hstopping
    · exact .inr fun hstake => hsafe ⟨hstake, hstopping⟩
    · exact .inl ⟨rfl, nofun⟩
  next i hplace =>
    exact h.advance hplace rfl nofun nofun (.inl ⟨rfl, nofun⟩)
  next i hplace =>
    rw [hplace] at hsafe
    refine h.advance hplace rfl nofun nofun ?_
    split_ifs with hreset
    · exact .inr fun hstake => hsafe ⟨hstake, hreset⟩
    · exact .inl ⟨rfl, nofun⟩
  next i hplace =>
    exact (h.removeKey _).advance hplace rfl nofun nofun
      (.inr fun hstake => notMem_erase _ _ hstake.1)

omit [DecidableEq ι] in
lemma localActors (hstopping : s.stopping = true) (hnone : s.actorRefs = none) :
    Sound singleton members { s with actorRefs := some s.tree } := by
  refine ⟨fun i hi hstake => ?_, h.registered, fun refs hrefs => ?_,
    fun i _ _ => .inl (h.begun hnone), fun hfalse => ?_, nofun⟩
  · have hnot : ¬s.Swept i := fun ⟨refs, hrefs, _⟩ => nomatch hnone.symm.trans hrefs
    exact h.watched i hi ⟨hstake.1, hnot⟩
  · exact (some.inj hrefs) ▸ Finset.Subset.refl _
  · exact nomatch hfalse.symm.trans hstopping

omit [DecidableEq ι] in
lemma cleanupCluster {actorRefs : Finset ι} {isLeader : Bool} (hrefs : s.actorRefs = some actorRefs)
    (hsafe : ¬Hazard singleton s (.cleanupCluster isLeader)) :
    Sound singleton members
      { s with cleanup := .removing (if isLeader then actorRefs else ∅) } := by
  refine ⟨h.watched, h.registered, h.refs, fun i hswept hkey => .inr ⟨_, rfl, ?_⟩, h.stopping,
    fun hnone => nomatch hnone.symm.trans hrefs⟩
  cases isLeader with
  | true =>
    obtain ⟨refs, hrefs', hi⟩ := hswept
    rw [hrefs] at hrefs'
    exact some.inj hrefs' ▸ hi
  | false => exact absurd ⟨rfl, i, hswept, hkey⟩ hsafe

lemma removeKind {left : Finset ι}
    (hcleanup : s.cleanup = .removing left) (hsafe : ¬Hazard singleton s (.removeKind i)) :
    Sound singleton members { s with
        kinds := s.kinds.erase (singleton i).kind, cleanup := .removing (left.erase i) } := by
  have herase := h.removeKey (singleton i).kind
  refine ⟨herase.watched, h.registered, h.refs, fun j hswept hkey => .inr ⟨_, rfl, ?_⟩, h.stopping,
    fun hnone => nomatch hcleanup.symm.trans (h.begun hnone)⟩
  rcases herase.swept j hswept hkey with hwaiting | ⟨left', hleft, hj⟩
  · exact nomatch hcleanup.symm.trans hwaiting
  · injection hcleanup.symm.trans hleft with heq
    refine mem_erase.mpr ⟨?_, heq ▸ hj⟩
    -- without a role the key is the kind, which was removed
    rintro rfl
    obtain ⟨hne, hmem⟩ := mem_erase.mp hkey
    have hrole : (singleton j).role = "" := not_not.mp fun hrole => hsafe ⟨hrole, hmem⟩
    exact hne (if_pos hrole)

omit [DecidableEq ι] in
lemma cleaned (hcleanup : s.cleanup = .removing ∅) :
    Sound singleton members { s with cleanup := .finished } := by
  refine ⟨h.watched, h.registered, h.refs, fun i hswept hkey => ?_, h.stopping,
    fun hnone => nomatch hcleanup.symm.trans (h.begun hnone)⟩
  rcases h.swept i hswept hkey with hwaiting | ⟨left, hleft, hi⟩
  · exact nomatch hcleanup.symm.trans hwaiting
  · injection hcleanup.symm.trans hleft with heq
    exact absurd (heq ▸ hi) (notMem_empty i)

lemma step {e : Event ι} (hstep : s.step singleton e = some s')
    (hsafe : ¬Hazard singleton s e) : Sound singleton members s' := by
  cases e with dsimp only [SingletonNode.step] at hstep
  | freeWatchers i =>
    obtain ⟨-, rfl⟩ := allow_eq_some.mp hstep
    exact h.freeWatchers i
  | reset i =>
    obtain ⟨htold, rfl⟩ := allow_eq_some.mp hstep
    exact h.reset htold
  | deleteNode i =>
    obtain ⟨-, rfl⟩ := allow_eq_some.mp hstep
    exact h.deleteNode hsafe
  | receive =>
    split at hstep <;> cases hstep
    next i mailbox hidle hmailbox => exact h.receive hidle hmailbox
  | handle => exact h.handle hstep hsafe
  | shutdown =>
    cases hstep
    exact ⟨h.watched, h.registered, h.refs, h.swept, nofun, h.begun⟩
  | localActors =>
    obtain ⟨⟨hstopping, hnone⟩, rfl⟩ := allow_eq_some.mp hstep
    exact h.localActors hstopping hnone
  | cleanupCluster isLeader =>
    split at hstep <;> cases hstep
    next actorRefs hrefs hwaiting => exact h.cleanupCluster hrefs hsafe
  | removeKind i =>
    split at hstep <;> try cases hstep
    next left hcleanup =>
      obtain ⟨-, rfl⟩ := allow_eq_some.mp hstep
      exact h.removeKind hcleanup hsafe
  | cleaned =>
    split at hstep <;> try cases hstep
    next left hcleanup =>
      obtain ⟨rfl, rfl⟩ := allow_eq_some.mp hstep
      exact h.cleaned hcleanup

omit [DecidableEq ι] in
lemma not_reserved (hi : i ∈ members) (hdone : s.Done i) : (singleton i).key ∉ s.kinds := by
  intro hkey
  obtain ⟨hreset, hsubject, hend⟩ := hdone
  by_cases hswept : s.Swept i
  · obtain ⟨refs, hrefs, -⟩ := id hswept
    rcases hend with ⟨hrunning, -⟩ | hfinished
    · exact nomatch (h.stopping hrunning).symm.trans hrefs
    · rcases h.swept i hswept hkey with hwaiting | ⟨left, hleft, -⟩
      · exact nomatch hfinished.symm.trans hwaiting
      · exact nomatch hfinished.symm.trans hleft
  · have htree : i ∈ s.tree := (h.watched i hi ⟨hkey, hswept⟩).resolve_right fun hplace =>
      hsubject hplace.1
    have hmailbox : i ∈ s.mailbox := by
      rcases h.registered i htree with hlife | hmem | hplace | hplace
      · exact nomatch hreset.symm.trans hlife
      · exact hmem
      · exact absurd (congrArg _ hplace) hsubject
      · exact absurd (congrArg _ hplace) hsubject
    rcases hend with ⟨-, hnot⟩ | hfinished
    · exact hnot hmailbox
    · cases hrefs : s.actorRefs with
      | none => exact nomatch hfinished.symm.trans (h.begun hrefs)
      | some refs => exact hswept ⟨refs, hrefs, h.refs refs hrefs htree⟩

end

lemma run {kinds : Finset String} {events : List (Event ι)}
    (hsafe : ¬(system singleton kinds members).Took (Hazard singleton) events)
    (hrun : (system singleton kinds members).run events = some s) : Sound singleton members s := by
  refine System.safe_invariant ?_ (fun s e s' h hstep hnot => h.step hstep hnot) hsafe hrun
  exact ⟨fun i hi _ => .inl hi, fun _ _ => .inl rfl, nofun, fun _ _ _ => .inl rfl, fun _ => rfl,
    fun _ => rfl⟩

end Sound

/-- In every run without a hazard, once all steps for a stopped singleton are done its key is
not in the registry. -/
theorem stopped_singleton_frees_slot {kinds : Finset String} {events : List (Event ι)}
    (hsafe : ¬(system singleton kinds members).Took (Hazard singleton) events)
    (hrun : (system singleton kinds members).run events = some s) {i : ι} (hi : i ∈ members)
    (hdone : s.Done i) : (singleton i).key ∉ s.kinds :=
  (Sound.run hsafe hrun).not_reserved hi hdone

/-- A test that no hazard passes. -/
def harmless (singleton : ι → SingletonKind) (s : SingletonNode ι) : Event ι → Bool
  | .deleteNode _ => false
  | .handle =>
    match s.deathWatch with
    | .check _ => !s.stopping
    | .isSingleton i => decide (s.life i ≠ .reset)
    | _ => true
  | .cleanupCluster isLeader => isLeader
  | .removeKind i => decide ((singleton i).role = "")
  | _ => true

omit [DecidableEq ι] in
lemma not_hazard_of_harmless (s : SingletonNode ι) (e : Event ι)
    (htest : s.harmless singleton e = true) : ¬Hazard singleton s e := by
  cases e with
  | deleteNode i => exact nomatch htest
  | handle =>
    dsimp only [harmless] at htest
    dsimp only [Hazard]
    split
    next hplace =>
      rw [hplace] at htest
      rintro ⟨-, hstopping⟩
      rw [hstopping] at htest
      exact nomatch htest
    next hplace =>
      rw [hplace] at htest
      exact fun hazard => of_decide_eq_true htest hazard.2
    · exact not_false
  | cleanupCluster isLeader => exact fun hazard => nomatch htest.symm.trans hazard.1
  | removeKind i => exact fun hazard => hazard.1 (of_decide_eq_true htest)
  | _ => exact not_false

instance (s : SingletonNode ι) (i : ι) : Decidable (s.Done i) :=
  inferInstanceAs (Decidable (_ ∧ _ ∧ _))

/-- The first singleton has no role, the others have one. -/
def counters (i : ℕ) : SingletonKind := if i = 0 then ⟨"counter", ""⟩ else ⟨"timer", "eu"⟩

/-- The singleton with a role stops, and the death watch handles its message before it is
reset. Then the node, which is the leader, shuts down. -/
def stopAndShutdown : List (Event ℕ) :=
  [.freeWatchers 1, .receive, .handle, .handle, .handle, .handle, .handle, .handle, .reset 1,
    .shutdown, .localActors, .freeWatchers 0, .reset 0, .cleanupCluster true, .removeKind 0,
    .cleaned]

theorem stopped_singleton_frees_slot_stopAndShutdown :
    ∃ s, (system counters {"counter", "timer::eu"} {0, 1}).run stopAndShutdown = some s ∧
      s.Done 0 ∧ s.Done 1 ∧ "counter" ∉ s.kinds ∧ "timer::eu" ∉ s.kinds := by
  obtain ⟨s, hrun, hsafe, hzero, hone⟩ := System.exists_safe_run
    (system counters {"counter", "timer::eu"} {0, 1}) stopAndShutdown
    (fun s => s.Done 0 ∧ s.Done 1) (Q := Hazard counters) not_hazard_of_harmless
    (by decide +kernel)
  exact ⟨s, hrun, hzero, hone, stopped_singleton_frees_slot hsafe hrun (by decide) hzero,
    stopped_singleton_frees_slot hsafe hrun (by decide) hone⟩

/-- The PID is reset before the death watch handles the message. -/
def resetFirst : List (Event ℕ) :=
  [.freeWatchers 0, .reset 0, .receive, .handle, .handle, .handle, .handle, .handle]

/-- The node shuts down, as the leader or not. -/
def shutdownOnly (isLeader : Bool) : List (Event ℕ) :=
  [.shutdown, .localActors, .freeWatchers 0, .freeWatchers 1, .reset 0, .reset 1,
    .cleanupCluster isLeader] ++ (if isLeader then [.removeKind 0, .removeKind 1] else []) ++
    [.cleaned]

/-- The node begins to shut down when the death watch has just taken the singleton from the
tree. -/
def betweenDeleteAndCheck : List (Event ℕ) :=
  [.freeWatchers 0, .receive, .handle, .handle, .shutdown, .localActors, .handle, .reset 0,
    .freeWatchers 1, .reset 1, .cleanupCluster true, .removeKind 1, .cleaned]

/-- All steps for the singleton are done in a run, and its key is still in the registry. -/
def KeepsSlot (events : List (Event ℕ)) (i : ℕ) : Prop :=
  ∃ s, (system counters {"counter", "timer::eu"} {0, 1}).run events = some s ∧ s.Done i ∧
    (counters i).key ∈ s.kinds

/-- The slot is not freed when the PID is reset first, when the node is not the leader, when
the singleton has a role, and when the shutdown begins in the middle of the handling. -/
theorem stopped_singleton_keeps_slot :
    KeepsSlot resetFirst 0 ∧ KeepsSlot (shutdownOnly false) 0 ∧ KeepsSlot (shutdownOnly true) 1 ∧
      KeepsSlot betweenDeleteAndCheck 0 := by
  refine ⟨?_, ?_, ?_, ?_⟩
  · exact System.exists_run (by decide +kernel)
  · exact System.exists_run (by decide +kernel)
  · exact System.exists_run (by decide +kernel)
  · exact System.exists_run (by decide +kernel)

end SingletonNode
end GoAkt.Actor
