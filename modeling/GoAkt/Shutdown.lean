import GoAkt.ActorTreeViews
import GoAkt.Interleavings

/-!
# Stopping actors

`Shutdown` takes the actor's stop lock, marks the actor as stopping and runs `doStop`:
release the watchees, free the children in parallel, run `PostStop`, tell the watchers,
and in a deferred step clear the flags. The chain stops at its first error, the deferred
step runs in any case. Each access to the shared tree, each check of a flag and each
message is one step here, and any number of stops run side by side: calls from outside,
calls that a stopping parent makes for its children, and calls of the Stop directive,
which deletes the actor's node when its `Shutdown` has returned.

The death watch is an actor that watches the others. When it handles a `Terminated`
message it deletes the node it finds under the path, corrects the actor counter and
removes the cluster entry. The actor system itself is not shutting down.
-/
namespace GoAkt.Actor
open GoAkt.FiniteMaps GoAkt.Interleavings Function

def isSystemName (name : String) : Bool := "GoAkt".toList.isPrefixOf name.toList

/-- The state flags of a PID. -/
structure Flags where
  running : Bool
  stopping : Bool
  suspended : Bool
  system : Bool
deriving DecidableEq

def Flags.isRunning (f : Flags) : Bool := f.running && !f.stopping && !f.suspended

/-- Where the goroutine that frees a child stands. -/
inductive ChildTask
  | unwatch
  | disown
  | check
  | lock
  | waiting
deriving DecidableEq

/-- Where the `doStop` of an actor stands; `leaving` is the deferred step, with the error
that `doStop` returns. -/
inductive Stage
  | idle
  | begun
  | freeingWatchees (todo : List PID)
  | freeingChildren (tasks : Map PID ChildTask) (failed : Bool)
  | postStop
  | hookDone
  | freeingWatchers (todo : List PID)
  | releasing (watcher : PID) (todo : List PID)
  | leaving (failed : Bool)

inductive Caller
  | outside
  | parent (pid : PID)
  | directive
deriving DecidableEq

/-- What the stops depend on: string folding, the system's NoSender and death watch, and
whether the system is in a cluster. -/
structure Setting where
  equalFold : String → String → Bool
  noSender : Option PID
  deathWatch : PID
  inCluster : Bool

/-- `sent` holds the `Terminated` messages as pairs of receiver and subject, `unwatched`
the `UnWatch` calls that actors made as pairs of the watcher's and the watchee's ID, by
which the tree knows them. `inbox` are the
subjects the death watch has still to handle, `dropping` the actors the Stop directive
has still to delete, `accounted` the actors for which the counter was decreased. -/
structure Lifecycle where
  tree : Tree
  flags : PID → Flags
  stage : PID → Stage
  caller : PID → Caller
  sent : List (PID × PID)
  unwatched : List (String × String)
  inbox : List PID
  dropping : List PID
  counter : ℤ
  accounted : List PID
  cluster : Finset String

namespace Lifecycle
variable (s : Lifecycle)

def setStage (p : PID) (stage : Stage) : Lifecycle :=
  { s with stage := update s.stage p stage }

def setFlags (p : PID) (f : Flags → Flags) : Lifecycle :=
  { s with flags := update s.flags p (f (s.flags p)) }

/-- `watcher.UnWatch(pid)`, called by the watcher. -/
def unWatch (watcher pid : PID) : Lifecycle :=
  { s with
    tree := s.tree.removeWatcher (some pid) (some watcher)
    unwatched := (watcher.id, pid.id) :: s.unwatched }

/-- `Shutdown` has the lock and found the actor running. -/
def begin (p : PID) (caller : Caller) : Lifecycle :=
  { (s.setFlags p ({ · with stopping := true })).setStage p .begun with
    caller := update s.caller p caller }

/-- `Shutdown` is allowed for this name and nobody holds the stop lock. -/
def free (p : PID) : Bool :=
  !isSystemName p.name && (match s.stage p with | .idle => true | _ => false)

def shutdown (p : PID) : Option Lifecycle :=
  allow (s.free p = true ∧ (s.flags p).running = true) (s.begin p .outside)

/-- `handleStopDirective` calls `Shutdown`, which returns at once when the actor is not
running. -/
def directive (s : Lifecycle) (p : PID) : Option Lifecycle :=
  allow (s.free p = true)
    (if (s.flags p).running then s.begin p .directive
      else { s with dropping := p :: s.dropping })

section Steps
variable (cfg : Setting) (s : Lifecycle)

/-! ## The steps of doStop -/

variable (ranging : Ranging) (p : PID)

def readWatchees : Option Lifecycle :=
  match s.stage p with
  | .begun => some (s.setStage p (.freeingWatchees (s.tree.watchees cfg.equalFold p)))
  | _ => none

def freeWatchee (p watched : PID) : Option Lifecycle :=
  match s.stage p with
  | .freeingWatchees todo =>
    allow (watched ∈ todo)
      ((s.unWatch p watched).setStage p (.freeingWatchees (todo.erase watched)))
  | _ => none

def readChildren : Option Lifecycle :=
  match s.stage p with
  | .freeingWatchees [] =>
    some (s.setStage p (.freeingChildren
      (collect (s.tree.children cfg.equalFold p) fun _ => some .unwatch) false))
  | _ => none

/-- The next step of the goroutine that frees a child. A child that is found running or
suspended is shut down once its stop lock is free; any other child is left alone, also
one that another call is just stopping. -/
def freeChild (p child : PID) : Option Lifecycle :=
  match s.stage p with
  | .freeingChildren tasks failed =>
    match tasks.lookup child with
    | some .unwatch =>
      some ((s.unWatch p child).setStage p (.freeingChildren (tasks.insert child .disown) failed))
    | some .disown =>
      some ({ s with tree := s.tree.removeDescendant p.id child.id }.setStage p
        (.freeingChildren (tasks.insert child .check) failed))
    | some .check =>
      some (s.setStage p (.freeingChildren
        (if (s.flags child).suspended || (s.flags child).isRunning then tasks.insert child .lock
          else tasks.erase child) failed))
    | some .lock =>
      if isSystemName child.name then
        some (s.setStage p (.freeingChildren (tasks.erase child) true))
      else
        allow (s.free child = true)
          (if (s.flags child).running then
            (s.setStage p (.freeingChildren (tasks.insert child .waiting) failed)).begin child
              (.parent p)
          else s.setStage p (.freeingChildren (tasks.erase child) failed))
    | some .waiting => none
    | none => none
  | _ => none

def joinChildren : Option Lifecycle :=
  match s.stage p with
  | .freeingChildren tasks failed =>
    allow (tasks.keys = []) (s.setStage p (if failed then .leaving true else .postStop))
  | _ => none

/-- The `PostStop` hook returns, without an error when `ok`. -/
def runPostStop (ok : Bool) : Option Lifecycle :=
  match s.stage p with
  | .postStop => some (s.setStage p (if ok then .hookDone else .leaving true))
  | _ => none

def readWatchers : Option Lifecycle :=
  match s.stage p with
  | .hookDone => some (s.setStage p (.freeingWatchers (s.tree.watchers cfg.equalFold p)))
  | _ => none

def tellWatcher (p watcher : PID) : Option Lifecycle :=
  match s.stage p with
  | .freeingWatchers todo =>
    allow (watcher ∈ todo)
      (if (s.flags watcher).isRunning then
        { s with
          stage := update s.stage p (.releasing watcher (todo.erase watcher))
          sent := (watcher, p) :: s.sent
          inbox := if watcher = cfg.deathWatch then s.inbox ++ [p] else s.inbox }
      else s.setStage p (.freeingWatchers (todo.erase watcher)))
  | _ => none

def releaseWatcher : Option Lifecycle :=
  match s.stage p with
  | .releasing watcher todo =>
    some ({ s with tree := s.tree.removeWatcher (some p) (some watcher) }.setStage p
      (.freeingWatchers todo))
  | _ => none

def leave : Option Lifecycle :=
  match s.stage p with
  | .freeingWatchers [] => some (s.setStage p (.leaving false))
  | _ => none

/-- The error of a child's `Shutdown` reaches the goroutine that waits for it. -/
def resolve (s : Lifecycle) (parent child : PID) (failed : Bool) : Lifecycle :=
  match s.stage parent with
  | .freeingChildren tasks failed' =>
    if tasks.lookup child = some .waiting then
      s.setStage parent (.freeingChildren (tasks.erase child) (failed' || failed))
    else s
  | _ => s

/-- The deferred step clears the flags, and the call returns to its caller. -/
def finish : Option Lifecycle :=
  match s.stage p with
  | .leaving failed =>
    let s := (s.setFlags p
      ({ · with running := false, stopping := false, suspended := false })).setStage p .idle
    some (match s.caller p with
      | .outside => s
      | .parent parent => s.resolve parent p failed
      | .directive =>
        if failed then s.setFlags p ({ · with suspended := true })
        else { s with dropping := p :: s.dropping })
  | _ => none

/-! ## Around the stops -/

/-- An actor other than the death watch, which never does, calls `UnWatch`. -/
def callUnWatch (watcher pid : PID) : Option Lifecycle :=
  allow (watcher.id ≠ cfg.deathWatch.id) (s.unWatch watcher pid)

/-- The death watch handles a message. A node whose PID was cleared is a `nil` PID, on
which the handler panics. -/
def handleTerminated (subject : PID) : Option Lifecycle :=
  if subject ∈ s.inbox then
    let s := { s with inbox := s.inbox.erase subject }
    match s.tree.node subject.id with
    | none => some s
    | some r =>
      match (s.tree.heap r).pid with
      | none => none
      | some pid =>
        let system := (s.flags pid).system
        (s.tree.deleteNode cfg.equalFold cfg.noSender ranging (some pid)).map fun tree =>
          { s with
            tree
            counter := if system then s.counter else s.counter - 1
            accounted := if system then s.accounted else pid :: s.accounted
            cluster := if cfg.inCluster && !system then s.cluster.erase pid.name else s.cluster }
  else none

/-- The Stop directive deletes the node of an actor whose `Shutdown` returned no error. -/
def drop : Option Lifecycle :=
  if p ∈ s.dropping then
    (s.tree.deleteNode cfg.equalFold cfg.noSender ranging (some p)).map fun tree =>
      { s with tree, dropping := s.dropping.erase p }
  else none

end Steps

inductive Event
  | shutdown (p : PID)
  | directive (p : PID)
  | readWatchees (p : PID)
  | freeWatchee (p watched : PID)
  | readChildren (p : PID)
  | freeChild (p child : PID)
  | joinChildren (p : PID)
  | runPostStop (p : PID) (ok : Bool)
  | readWatchers (p : PID)
  | tellWatcher (p watcher : PID)
  | releaseWatcher (p : PID)
  | leave (p : PID)
  | finish (p : PID)
  | callUnWatch (watcher pid : PID)
  | handleTerminated (ranging : Ranging) (subject : PID)
  | drop (ranging : Ranging) (p : PID)

def step (cfg : Setting) (s : Lifecycle) : Event → Option Lifecycle
  | .shutdown p => s.shutdown p
  | .directive p => s.directive p
  | .readWatchees p => s.readWatchees cfg p
  | .freeWatchee p watched => s.freeWatchee p watched
  | .readChildren p => s.readChildren cfg p
  | .freeChild p child => s.freeChild p child
  | .joinChildren p => s.joinChildren p
  | .runPostStop p ok => s.runPostStop p ok
  | .readWatchers p => s.readWatchers cfg p
  | .tellWatcher p watcher => s.tellWatcher cfg p watcher
  | .releaseWatcher p => s.releaseWatcher p
  | .leave p => s.leave p
  | .finish p => s.finish p
  | .callUnWatch watcher pid => s.callUnWatch cfg watcher pid
  | .handleTerminated ranging subject => s.handleTerminated cfg ranging subject
  | .drop ranging p => s.drop cfg ranging p

/-- The stops that start from a given state. -/
def stops (cfg : Setting) (start : Lifecycle) : System Lifecycle Event where
  start := start
  step := step cfg

/-- A state before any stop: every actor that the tree holds is live, each of them apart
from system actors is watched by the death watch and is not taken for NoSender, and no
system actor is the child of another actor. -/
structure Ready (cfg : Setting) (s : Lifecycle) : Prop where
  intact : s.tree.Intact
  live : ∀ p, s.tree.Holds p ↔ (s.flags p).running = true
  idle : ∀ p, s.stage p = .idle
  calm : ∀ p, (s.flags p).stopping = false
  sent : s.sent = []
  unwatched : s.unwatched = []
  inbox : s.inbox = []
  dropping : s.dropping = []
  accounted : s.accounted = []
  deathWatch : isSystemName cfg.deathWatch.name = true ∧ (s.flags cfg.deathWatch).isRunning = true
  watching : ∀ p, s.tree.Holds p → isSystemName p.name = false → s.tree.Watches cfg.deathWatch p
  sender : ∀ p, s.tree.Holds p → isSystemName p.name = false →
    p.equals cfg.equalFold s.tree.noSender = false ∧ p.equals cfg.equalFold cfg.noSender = false
  family : ∀ p c, s.tree.Lists p c → isSystemName p.name = false → isSystemName c.name = false

/-!
## The order of stops

In every run of stops, whether hooks fail or not, only running actors stop, and an actor that has
freed its children lists none, so deleting its node deletes nothing else.
-/
variable {cfg : Setting} {s s' : Lifecycle}

/-- The deferred step of `doStop`, before the call returns. -/
def rest (s : Lifecycle) (p : PID) : Lifecycle :=
  (s.setFlags p ({ · with running := false, stopping := false, suspended := false })).setStage
    p .idle

/-! ## Reading a changed state -/

@[simp] lemma stage_setStage_self (s : Lifecycle) (p : PID) (stage : Stage) :
    (s.setStage p stage).stage p = stage := update_self _ _ _

lemma stage_setStage_of_ne (s : Lifecycle) {p q : PID} (stage : Stage) (h : q ≠ p) :
    (s.setStage p stage).stage q = s.stage q := update_of_ne h _ _

lemma free_iff (s : Lifecycle) (p : PID) :
    s.free p = true ↔ isSystemName p.name = false ∧ s.stage p = .idle := by
  unfold free
  cases s.stage p <;> simp

/-! ## Order -/

/-- The stages after the children were freed. -/
def Late : Stage → Prop
  | .postStop => True
  | .hookDone => True
  | .freeingWatchers _ => True
  | .releasing _ _ => True
  | .leaving _ => True
  | _ => False

/-- Which children an actor may still list at a stage of its stop. -/
def Childless (s : Lifecycle) (p : PID) : Stage → Prop
  | .idle => (s.flags p).running = true ∨ ∀ c, ¬s.tree.Lists p c
  | .begun => True
  | .freeingWatchees _ => True
  | .freeingChildren tasks _ => ∀ c, s.tree.Lists p c →
      tasks.lookup c = some .unwatch ∨ tasks.lookup c = some .disown
  | _ => ∀ c, ¬s.tree.Lists p c

/-- The order of every run, with failing hooks or without. For an actor that is taken for
NoSender the tree answers with no children. -/
structure Orderly (cfg : Setting) (s : Lifecycle) : Prop where
  intact : s.tree.Intact
  active : ∀ p, s.stage p ≠ .idle → isSystemName p.name = false ∧
    (s.flags p).running = true ∧ (s.flags p).stopping = true
  calm : ∀ p, s.stage p = .idle → (s.flags p).stopping = false
  childless : ∀ p, p.equals cfg.equalFold s.tree.noSender = false → Childless s p (s.stage p)

namespace Orderly
variable (h : Orderly cfg s)
include h

variable {p : PID}

/-- One actor goes on to another stage, with other flags. -/
lemma change {s' : Lifecycle} (htree : s'.tree = s.tree)
    (hother : ∀ q, q ≠ p → s'.stage q = s.stage q ∧ s'.flags q = s.flags q)
    (hactive : s'.stage p ≠ .idle → isSystemName p.name = false ∧
      (s'.flags p).running = true ∧ (s'.flags p).stopping = true)
    (hcalm : s'.stage p = .idle → (s'.flags p).stopping = false)
    (hchildless : p.equals cfg.equalFold s.tree.noSender = false → Childless s' p (s'.stage p)) :
    Orderly cfg s' where
  intact := htree ▸ h.intact
  active q hq := by
    by_cases hqp : q = p
    · subst hqp
      exact hactive hq
    · rw [(hother q hqp).1] at hq
      rw [(hother q hqp).2]
      exact h.active q hq
  calm q hq := by
    by_cases hqp : q = p
    · subst hqp
      exact hcalm hq
    · rw [(hother q hqp).1] at hq
      rw [(hother q hqp).2]
      exact h.calm q hq
  childless q hq := by
    rw [htree] at hq
    by_cases hqp : q = p
    · subst hqp
      exact hchildless hq
    · have hold := h.childless q hq
      unfold Childless at hold ⊢
      rw [(hother q hqp).1, (hother q hqp).2, htree]
      exact hold

lemma setStage {stage : Stage} (hp : s.stage p ≠ .idle) (hstage : stage ≠ .idle)
    (hchildless : p.equals cfg.equalFold s.tree.noSender = false → Childless s p stage) :
    Orderly cfg (s.setStage p stage) := by
  have hself := stage_setStage_self s p stage
  refine h.change rfl (fun q hq => ⟨stage_setStage_of_ne s stage hq, rfl⟩)
    (fun _ => h.active p hp) (fun hidle => absurd (hself.symm.trans hidle) hstage) fun hq => ?_
  rw [hself]
  exact hchildless hq

variable {y : Tree}

/-- A smaller tree keeps the order. -/
lemma shrink (hintact : y.Intact) (hsender : y.noSender = s.tree.noSender)
    (hlists : ∀ p c, y.Lists p c → s.tree.Lists p c) : Orderly cfg { s with tree := y } where
  intact := hintact
  active := h.active
  calm := h.calm
  childless p hp := by
    have hold := h.childless p (hsender ▸ hp)
    dsimp only
    unfold Childless at hold ⊢
    split at hold
    · exact hold.imp_right fun hnone c hc => hnone c (hlists p c hc)
    · trivial
    · trivial
    · exact fun c hc => hold c (hlists p c hc)
    · exact fun c hc => hold c (hlists p c hc)

lemma without (hy : s.tree.Without p y) : Orderly cfg { s with tree := y } :=
  h.shrink hy.intact hy.noSender fun q c hc => ((hy.lists q c).mp hc).1

lemma begin (caller : Caller) (hfree : s.free p = true)
    (hrun : (s.flags p).running = true) : Orderly cfg (s.begin p caller) := by
  have hself : (s.begin p caller).stage p = .begun ∧
      (s.begin p caller).flags p = { s.flags p with stopping := true } :=
    ⟨update_self _ _ _, update_self _ _ _⟩
  refine h.change rfl (fun q hq => ⟨update_of_ne hq _ _, update_of_ne hq _ _⟩) ?_ ?_ fun _ => ?_
  · rw [hself.2]
    exact fun _ => ⟨((free_iff s p).mp hfree).1, hrun, rfl⟩
  · rw [hself.1]
    nofun
  · rw [hself.1]
    trivial

variable {failed : Bool}

lemma rest (hstage : s.stage p = .leaving failed) : Orderly cfg (s.rest p) := by
  have hself : (s.rest p).stage p = .idle := update_self _ _ _
  refine h.change rfl (fun q hq => ⟨update_of_ne hq _ _, update_of_ne hq _ _⟩)
    (fun hne => absurd hself hne) (fun _ => ?_) fun hq => ?_
  · simp [Lifecycle.rest, Lifecycle.setStage, setFlags]
  · have hold := h.childless p hq
    rw [hstage] at hold
    rw [hself]
    exact .inr hold

/-! ### The children that are being freed -/

variable {tasks : Map PID ChildTask} {p child : PID}

section
variable (hstage : s.stage p = .freeingChildren tasks failed)
  (hsender : p.equals cfg.equalFold s.tree.noSender = false)
include hstage hsender

/-- The children that are listed have not been disowned. -/
lemma not_disowned {c : PID} (hc : s.tree.Lists p c) :
    tasks.lookup c = some .unwatch ∨ tasks.lookup c = some .disown := by
  have hold := h.childless p hsender
  rw [hstage] at hold
  exact hold c hc

lemma not_lists {task : ChildTask} (htask : tasks.lookup child = some task)
    (hunwatch : task ≠ .unwatch) (hdisown : task ≠ .disown) : ¬s.tree.Lists p child := by
  intro hlists
  rcases h.not_disowned hstage hsender hlists with hlookup | hlookup
  · exact hunwatch (Option.some.inj (htask.symm.trans hlookup))
  · exact hdisown (Option.some.inj (htask.symm.trans hlookup))

lemma childless_insert {failed' : Bool} {task : ChildTask}
    (hchild : ¬s.tree.Lists p child ∨ task = .disown) :
    Childless s p (.freeingChildren (tasks.insert child task) failed') := by
  intro c hc
  rw [lookup_insert_ite]
  split_ifs with heq
  · subst heq
    exact .inr (congrArg some (hchild.resolve_left fun hnot => hnot hc))
  · exact h.not_disowned hstage hsender hc

lemma childless_erase {failed' : Bool} (hchild : ¬s.tree.Lists p child) :
    Childless s p (.freeingChildren (tasks.erase child) failed') := by
  intro c hc
  rw [lookup_erase_ite, if_neg]
  · exact h.not_disowned hstage hsender hc
  · rintro rfl
    exact hchild hc

/-- When all goroutines have returned, no child is listed. -/
lemma childless_joined (hkeys : tasks.keys = []) (c : PID) : ¬s.tree.Lists p c := by
  intro hc
  have hnone : tasks.lookup c = none := by
    rw [AList.lookup_eq_none, AList.mem_keys, hkeys]
    exact List.not_mem_nil
  have hsome := h.not_disowned hstage hsender hc
  rw [hnone] at hsome
  simp at hsome

end

/-- The children that a stopping actor reads are those it lists. -/
lemma childless_collect (hsender : p.equals cfg.equalFold s.tree.noSender = false) :
    Childless s p (.freeingChildren
      (collect (s.tree.children cfg.equalFold p) fun _ => some .unwatch) false) := by
  intro c hc
  rw [lookup_collect, if_pos ((h.intact.mem_children hc.left hsender c).mpr hc)]
  exact .inl rfl

end Orderly
end Lifecycle
end GoAkt.Actor
