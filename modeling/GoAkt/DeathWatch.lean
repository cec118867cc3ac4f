import GoAkt.Spawning

/-!
# Death watch

The invariant compares a state with the one in which all stops started. An actor whose
watchers were not read yet is still watched by every running watcher that did not unwatch
it; from then on such a watcher is either on the list of those still to tell or has been
told, and nobody is told twice. The death watch never unwatches, so every actor that
finished its stop is told to it, and handling the message deletes the node.

A hook that fails breaks this: `doStop` returns before it reads the watchers, while the
deferred step marks the actor as stopped.
-/
namespace GoAkt.Actor
open GoAkt.FiniteMaps GoAkt.Interleavings Function List Option
namespace Lifecycle
variable {cfg : Setting} {s₀ s s' : Lifecycle} {bar : PID → PID → Prop}

/-- The watchers still to tell at a stage, once they have been read. -/
def listed (running : Bool) : Stage → Option (List PID)
  | .freeingWatchers todo => some todo
  | .releasing _ todo => some todo
  | .leaving _ => some []
  | .idle => if running then none else some []
  | _ => none

def pending (s : Lifecycle) (p : PID) : Option (List PID) := listed (s.flags p).running (s.stage p)

/-- A watcher from before the stops that runs and has not unwatched. -/
def Entitled (s₀ s : Lifecycle) (w p : PID) : Prop :=
  s₀.tree.Watches w p ∧ (s.flags w).isRunning = true ∧ (w.id, p.id) ∉ s.unwatched

/-- How far a watcher has been told about an actor. The watchers in `bar` had unwatched
before the actor's stop. -/
structure Delivery (s₀ : Lifecycle) (bar : PID → PID → Prop) (s : Lifecycle) (w p : PID) :
    Prop where
  before : s.pending p = none → (w, p) ∉ s.sent ∧ (Entitled s₀ s w p → s.tree.Watches w p) ∧
    (bar w p → ¬s.tree.Watches w p)
  during : ∀ todo, s.pending p = some todo → todo.Nodup ∧ s.sent.count (w, p) ≤ 1 ∧
    (w ∈ todo → (w, p) ∉ s.sent) ∧ (Entitled s₀ s w p → w ∈ todo ∨ (w, p) ∈ s.sent) ∧
    (bar w p → w ∉ todo ∧ (w, p) ∉ s.sent)

/-- No step of this actor's stop has failed. -/
def Clean : Stage → Prop
  | .freeingChildren _ failed => failed = false
  | .leaving failed => failed = false
  | _ => True

/-- The actor is being stopped or has been. -/
def Gone (s : Lifecycle) (c : PID) : Prop := s.stage c ≠ .idle ∨ (s.flags c).running = false

/-- The actor has still to free the child. -/
def Awaits (s : Lifecycle) (p c : PID) : Stage → Prop
  | .idle => (s.flags p).running = true ∧ s.tree.Lists p c
  | .begun => s.tree.Lists p c
  | .freeingWatchees _ => s.tree.Lists p c
  | .freeingChildren tasks _ => (tasks.lookup c).isSome = true
  | _ => False

/-- The duties of an actor to its children at a stage. -/
structure Rears (cfg : Setting) (s₀ s : Lifecycle) (p : PID) (stage : Stage) : Prop where
  tasks : ∀ tasks failed, stage = .freeingChildren tasks failed →
    ∀ c, (tasks.lookup c).isSome = true → s₀.tree.Lists p c
  childless : p.equals cfg.equalFold s.tree.noSender = false → Childless s p stage
  heirs : ∀ c, s₀.tree.Lists p c → Gone s c ∨ Awaits s p c stage

/-- The invariant of stops without failing hooks. -/
structure Sound (cfg : Setting) (s₀ : Lifecycle) (bar : PID → PID → Prop) (s : Lifecycle) :
    Prop where
  orderly : Orderly cfg s
  sender : s.tree.noSender = s₀.tree.noSender
  holds_sub : ∀ p, s.tree.Holds p → s₀.tree.Holds p
  lists_sub : ∀ p c, s.tree.Lists p c → s₀.tree.Lists p c
  running_sub : ∀ p, (s.flags p).running = true → (s₀.flags p).running = true
  named : ∀ p, (s₀.flags p).running = true → (s.flags p).running = false →
    isSystemName p.name = false
  watchful : (s.flags cfg.deathWatch).isRunning = true
  loyal : ∀ p : PID, (cfg.deathWatch.id, p.id) ∉ s.unwatched
  silent : ∀ w p : PID, (w.id, p.id) ∈ s.unwatched → ¬s.tree.Watches w p
  kept : ∀ p, s₀.tree.Holds p → s.tree.Holds p ∨ (cfg.deathWatch, p) ∈ s.sent
  clean : ∀ p, Clean (s.stage p)
  tasks : ∀ p tasks failed, s.stage p = .freeingChildren tasks failed →
    ∀ c, (tasks.lookup c).isSome = true → s₀.tree.Lists p c
  heirs : ∀ p c, s₀.tree.Lists p c → Gone s c ∨ Awaits s p c (s.stage p)
  delivery : ∀ w p, s₀.tree.Holds p → Delivery s₀ bar s w p
  told : ∀ w p, (w, p) ∈ s.sent → s₀.tree.Holds p ∧ isSystemName p.name = false
  queued : ∀ p ∈ s.inbox, (cfg.deathWatch, p) ∈ s.sent
  handled : ∀ p, (cfg.deathWatch, p) ∈ s.sent → p ∈ s.inbox ∨ ¬s.tree.Holds p
  dropped : ∀ p ∈ s.dropping, s₀.tree.Holds p ∧ isSystemName p.name = false ∧
    (s.flags p).running = false

/-! ## The start -/

lemma Ready.orderly (h : Ready cfg s₀) : Orderly cfg s₀ where
  intact := h.intact
  active p hp := absurd (h.idle p) hp
  calm p _ := h.calm p
  childless p _ := by
    rw [h.idle]
    by_cases hrun : (s₀.flags p).running = true
    · exact .inl hrun
    · exact .inr fun c hc => hrun ((h.live p).mp hc.left)

variable {p : PID}

lemma Ready.ne_deathWatch (h : Ready cfg s₀) (hp : s₀.tree.Holds p)
    (hname : isSystemName p.name = false) : p.id ≠ cfg.deathWatch.id := by
  intro hid
  have hrun : (s₀.flags cfg.deathWatch).running = true := by
    have hdw := h.deathWatch.2
    simp only [Flags.isRunning, Bool.and_eq_true] at hdw
    exact hdw.1.1
  obtain rfl := hp.inj ((h.live _).mpr hrun) hid
  rw [h.deathWatch.1] at hname
  cases hname

lemma sound_start (h : Ready cfg s₀) : Sound cfg s₀ (fun _ _ => False) s₀ where
  orderly := h.orderly
  sender := rfl
  holds_sub _ := id
  lists_sub _ _ := id
  running_sub _ := id
  named p hp hrun := by simp [hp] at hrun
  watchful := h.deathWatch.2
  loyal p := by simp [h.unwatched]
  silent w p hw := by simp [h.unwatched] at hw
  kept _ := .inl
  clean p := by rw [h.idle]; trivial
  tasks p tasks failed hp := by simp [h.idle] at hp
  heirs p c hc := by
    rw [h.idle]
    exact .inr ⟨(h.live p).mp hc.left, hc⟩
  delivery w p hp := by
    have hnone : s₀.pending p = none := by simp [pending, listed, h.idle, (h.live p).mp hp]
    refine ⟨fun _ => ⟨by simp [h.sent], fun hent => hent.1, False.elim⟩, fun todo htodo => ?_⟩
    rw [hnone] at htodo
    cases htodo
  told w p hp := by simp [h.sent] at hp
  queued p hp := by simp [h.inbox] at hp
  handled p hp := by simp [h.sent] at hp
  dropped p hp := by simp [h.dropping] at hp

/-! ## Stages -/

lemma Late.ne_idle {old : Stage} (h : Late old) (hstage : s.stage p = old) : s.stage p ≠ .idle := by
  intro hidle
  rw [← hstage, hidle] at h
  exact h

lemma pending_eq {s : Lifecycle} {p : PID} {stage : Stage} (hstage : s.stage p = stage) :
    s.pending p = listed (s.flags p).running stage := congrArg _ hstage

lemma pending_setStage_self (s : Lifecycle) (p : PID) (stage : Stage) :
    (s.setStage p stage).pending p = listed (s.flags p).running stage :=
  pending_eq (stage_setStage_self ..)

lemma pending_setStage_of_ne (s : Lifecycle) {p q : PID} (stage : Stage) (h : q ≠ p) :
    (s.setStage p stage).pending q = s.pending q := by
  unfold pending
  rw [stage_setStage_of_ne s stage h]
  rfl

/-- An actor that has read its watchers is being stopped or has been. -/
lemma gone_of_pending {todo : List PID} (hpending : s.pending p = some todo) : Gone s p := by
  by_cases hp : s.stage p = .idle
  · refine .inr ?_
    unfold pending at hpending
    rw [hp] at hpending
    cases hrun : (s.flags p).running with
    | true => simp [listed, hrun] at hpending
    | false => rfl
  · exact .inl hp

lemma gone_setStage {stage : Stage} (hne : stage ≠ .idle) {c : PID} (h : Gone s c) :
    Gone (s.setStage p stage) c := by
  by_cases hcp : c = p
  · rw [hcp]
    exact .inl fun hidle => hne ((stage_setStage_self s p stage).symm.trans hidle)
  · refine h.imp (fun hstage => ?_) id
    rwa [stage_setStage_of_ne s stage hcp]

lemma Delivery.congr {w p : PID} (h : Delivery s₀ bar s w p) (hpending : s'.pending p = s.pending p)
    (hsent : s'.sent = s.sent)
    (hrunning : (s'.flags w).isRunning = true → (s.flags w).isRunning = true)
    (hunwatched : s.unwatched ⊆ s'.unwatched)
    (hsub : s'.tree.Watches w p → s.tree.Watches w p)
    (hwatches : s.pending p = none → Entitled s₀ s' w p → s.tree.Watches w p →
      s'.tree.Watches w p) : Delivery s₀ bar s' w p := by
  have hentitled : Entitled s₀ s' w p → Entitled s₀ s w p :=
    fun hent => ⟨hent.1, hrunning hent.2.1, fun hin => hent.2.2 (hunwatched hin)⟩
  refine ⟨fun hnone => ?_, fun todo htodo => ?_⟩
  · rw [hpending] at hnone
    obtain ⟨hnot, hstill, hbar⟩ := h.before hnone
    rw [hsent]
    exact ⟨hnot, fun hent => hwatches hnone hent (hstill (hentitled hent)),
      fun hb hw => hbar hb (hsub hw)⟩
  · rw [hpending] at htodo
    obtain ⟨hnodup, hcount, hfresh, hleft, hbar⟩ := h.during todo htodo
    rw [hsent]
    exact ⟨hnodup, hcount, hfresh, fun hent => hleft (hentitled hent), hbar⟩

/-- No hook fails, and the Stop directive is for an actor of the tree. -/
def Allowed (s₀ : Lifecycle) : Event → Prop
  | .runPostStop _ ok => ok ≠ false
  | .directive p => s₀.tree.Holds p
  | _ => True

namespace Sound
variable (h : Sound cfg s₀ bar s)
include h

variable {p : PID}

lemma holds_of_active (hready : Ready cfg s₀) (hp : s.stage p ≠ .idle) : s₀.tree.Holds p :=
  (hready.live p).mpr (h.running_sub p (h.orderly.active p hp).2.1)

lemma not_sender (hready : Ready cfg s₀) (hp : s₀.tree.Holds p)
    (hname : isSystemName p.name = false) : p.equals cfg.equalFold s.tree.noSender = false ∧
      p.equals cfg.equalFold cfg.noSender = false := by
  rw [h.sender]
  exact hready.sender p hp hname

variable {stage : Stage}

/-- Moving an active actor on, and what it tells its watchers meanwhile. -/
lemma restage {sent : List (PID × PID)} {inbox : List PID}
    (hp : s.stage p ≠ .idle) (hne : stage ≠ .idle) (hclean : Clean stage)
    (hchildren : Rears cfg s₀ s p stage) (hsent : s.sent ⊆ sent)
    (htold : ∀ w q, (w, q) ∈ sent → s₀.tree.Holds q ∧ isSystemName q.name = false)
    (hqueued : ∀ q ∈ inbox, (cfg.deathWatch, q) ∈ sent)
    (hhandled : ∀ q, (cfg.deathWatch, q) ∈ sent → q ∈ inbox ∨ ¬s.tree.Holds q)
    (hdelivery : ∀ w q, s₀.tree.Holds q →
      Delivery s₀ bar { s.setStage p stage with sent, inbox } w q) :
    Sound cfg s₀ bar { s.setStage p stage with sent, inbox } := by
  refine { h with
    orderly := { h.orderly.setStage hp hne hchildren.childless with }
    kept := fun q hq => (h.kept q hq).imp_right fun hin => hsent hin
    clean := fun q => ?_, tasks := fun q tasks failed hq => ?_
    heirs := fun q c hc => ?_, delivery := hdelivery
    told := htold, queued := hqueued, handled := hhandled }
  · dsimp only
    by_cases hqp : q = p
    · rw [hqp, stage_setStage_self]
      exact hclean
    · rw [stage_setStage_of_ne s stage hqp]
      exact h.clean q
  · dsimp only at hq
    by_cases hqp : q = p
    · rw [hqp, stage_setStage_self] at hq
      rw [hqp]
      exact hchildren.tasks tasks failed hq
    · rw [stage_setStage_of_ne s stage hqp] at hq
      exact h.tasks q tasks failed hq
  · dsimp only
    by_cases hqp : q = p
    · subst hqp
      rw [stage_setStage_self]
      exact (hchildren.heirs c hc).imp_left (gone_setStage hne)
    · rw [stage_setStage_of_ne s stage hqp]
      exact (h.heirs q c hc).imp_left (gone_setStage hne)

/-- Moving an active actor on, with the watchers it has still to tell left as they are. -/
lemma setStage (hp : s.stage p ≠ .idle) (hne : stage ≠ .idle)
    (hpending : listed (s.flags p).running stage = s.pending p) (hclean : Clean stage)
    (hchildren : Rears cfg s₀ s p stage) : Sound cfg s₀ bar (s.setStage p stage) := by
  refine h.restage hp hne hclean hchildren (fun _ => id) h.told h.queued h.handled ?_
  intro w q hq
  refine (h.delivery w q hq).congr ?_ rfl id (fun _ => id) id fun _ _ => id
  by_cases hqp : q = p
  · subst hqp
    exact (pending_setStage_self s q stage).trans hpending
  · exact pending_setStage_of_ne s stage hqp

lemma rears {old stage : Stage} (hstage : s.stage p = old) (hold : Late old)
    (hlate : Late stage) : Rears cfg s₀ s p stage := by
  have hchildless := h.orderly.childless p
  have hheirs := h.heirs p
  rw [hstage] at hchildless hheirs
  refine ⟨?_, fun hsender => ?_, ?_⟩
  · rintro tasks failed rfl
    cases hlate
  · specialize hchildless hsender
    cases old <;> cases hold <;> cases stage <;> cases hlate <;> exact hchildless
  · cases old <;> cases hold <;> exact fun c hc => (hheirs c hc).imp_right False.elim

/-- From one late stage to the next. -/
lemma advance {old stage : Stage} (hstage : s.stage p = old) (hold : Late old)
    (hlate : Late stage) (hpending : listed (s.flags p).running stage = s.pending p)
    (hclean : Clean stage) : Sound cfg s₀ bar (s.setStage p stage) :=
  h.setStage (hold.ne_idle hstage) (fun heq => nomatch heq ▸ hlate) hpending hclean
    (h.rears hstage hold hlate)

/-- Dropping relations from the tree. A running watcher of an actor that has not read its
watchers loses its watch only by an `UnWatch` that is recorded, and a child is disowned
only while its parent frees it. -/
lemma loosen {watch list : PID → PID → Prop} {y : Tree} {u : List (String × String)}
    (hy : s.tree.Loosened watch list y) (hu : s.unwatched ⊆ u)
    (hloyal : ∀ p : PID, (cfg.deathWatch.id, p.id) ∉ u)
    (hsilent : ∀ w p : PID, (w.id, p.id) ∈ u → ¬y.Watches w p)
    (hwatch : ∀ w p, s.pending p = none → s.tree.Watches w p → watch w p → (w.id, p.id) ∈ u)
    (hlist : ∀ p c, s.tree.Lists p c → list p c →
      ∃ tasks failed, s.stage p = .freeingChildren tasks failed) :
    Sound cfg s₀ bar { s with tree := y, unwatched := u } := by
  have hlists : ∀ p c, y.Lists p c → s.tree.Lists p c := fun p c hc => ((hy.lists p c).mp hc).1
  refine { h with
    orderly := { h.orderly.shrink hy.intact hy.noSender hlists with }
    sender := hy.noSender.trans h.sender
    holds_sub := fun p hp => h.holds_sub p ((hy.holds p).mp hp)
    lists_sub := fun p c hc => h.lists_sub p c (hlists p c hc)
    loyal := hloyal, silent := hsilent
    kept := fun p hp => (h.kept p hp).imp_left (hy.holds p).mpr
    heirs := fun p c hc => ?_, delivery := fun w p hp => ?_
    handled := fun p hp => (h.handled p hp).imp_right fun hnot hq => hnot ((hy.holds p).mp hq) }
  · refine (h.heirs p c hc).imp_right fun hawaits => ?_
    have hstill : s.tree.Lists p c → (∀ tasks failed, s.stage p ≠ .freeingChildren tasks failed) →
        y.Lists p c := by
      intro hlists hnot
      refine (hy.lists p c).mpr ⟨hlists, fun hlost => ?_⟩
      obtain ⟨tasks, failed, hstage⟩ := hlist p c hlists hlost
      exact hnot tasks failed hstage
    dsimp only
    cases hstage : s.stage p with
    | idle =>
      rw [hstage] at hawaits hstill
      exact ⟨hawaits.1, hstill hawaits.2 nofun⟩
    | begun | freeingWatchees todo =>
      rw [hstage] at hawaits hstill
      exact hstill hawaits nofun
    | _ =>
      rw [hstage] at hawaits
      exact hawaits
  · refine (h.delivery w p hp).congr rfl rfl id hu (fun hw => ((hy.watches w p).mp hw).1) ?_
    intro hnone hent hold
    exact (hy.watches w p).mpr ⟨hold, fun hlost => hent.2.2 (hwatch w p hnone hold hlost)⟩

lemma unWatch {w : PID} (p : PID) (hw : w.id ≠ cfg.deathWatch.id) :
    Sound cfg s₀ bar (s.unWatch w p) := by
  have hy := h.orderly.intact.removeWatcher p w
  refine h.loosen hy (subset_cons_self _ _) (fun q hq => ?_) (fun w' q hq hwatch => ?_)
    (fun w' q _ _ hlost => ?_) fun _ _ _ => False.elim
  · rcases mem_cons.mp hq with heq | hold
    · exact hw (Prod.ext_iff.mp heq).1.symm
    · exact h.loyal q hold
  · obtain ⟨hold, hkept⟩ := (hy.watches w' q).mp hwatch
    rcases mem_cons.mp hq with heq | hin
    · exact hkept (Prod.ext_iff.mp heq)
    · exact h.silent w' q hin hold
  · rw [hlost.1, hlost.2]
    exact mem_cons_self

variable {tasks : Map PID ChildTask} {failed : Bool}

lemma disown {p c : PID} (hp : s₀.tree.Holds p)
    (hstage : s.stage p = .freeingChildren tasks failed) :
    Sound cfg s₀ bar { s with tree := s.tree.removeDescendant p.id c.id } := by
  have hy := h.orderly.intact.removeDescendant p.id c.id
  refine h.loosen hy (fun _ => id) h.loyal (fun w q hq hwatch => ?_) (fun _ _ _ _ => False.elim)
    fun q d hlists hlost => ?_
  · exact h.silent w q hq ((hy.watches w q).mp hwatch).1
  · obtain rfl := (h.holds_sub q hlists.left).inj hp hlost.1
    exact ⟨tasks, failed, hstage⟩

variable {todo : List PID} {p w : PID}

lemma release (hp : s₀.tree.Holds p) (hpending : s.pending p = some todo) :
    Sound cfg s₀ bar { s with tree := s.tree.removeWatcher (some p) (some w) } := by
  have hy := h.orderly.intact.removeWatcher p w
  refine h.loosen hy (fun _ => id) h.loyal (fun w' q hq hwatch => ?_)
    (fun w' q hnone hwatch hlost => ?_) fun _ _ _ => False.elim
  · exact h.silent w' q hq ((hy.watches w' q).mp hwatch).1
  · obtain rfl := (h.holds_sub q hwatch.right).inj hp hlost.2
    rw [hpending] at hnone
    cases hnone

/-- An actor takes its stop lock or gives it back: no other actor is touched. -/
lemma turn (hready : Ready cfg s₀) {flags : Flags} {caller : PID → Caller}
    (horderly : Orderly cfg { s with
      flags := update s.flags p flags, stage := update s.stage p stage, caller })
    (hname : isSystemName p.name = false) (hdown : flags.isRunning = false)
    (hrun : flags.running = true → (s.flags p).running = true)
    (hgone : stage ≠ .idle ∨ flags.running = false) (hstage : stage = .begun ∨ stage = .idle)
    (hheirs : ∀ c, Awaits s p c (s.stage p) → s.tree.Lists p c ∧ stage = .begun)
    (hpending : listed flags.running stage = s.pending p) :
    Sound cfg s₀ bar { s with
      flags := update s.flags p flags, stage := update s.stage p stage, caller } := by
  have hrunning : ∀ q, (update s.flags p flags q).running = true → (s.flags q).running = true := by
    intro q hq
    by_cases hqp : q = p
    · rw [hqp, update_self] at hq
      rw [hqp]
      exact hrun hq
    · rwa [update_of_ne hqp] at hq
  refine { h with
    orderly := horderly, running_sub := fun q hq => h.running_sub q (hrunning q hq)
    named := fun q hq hstop => ?_, watchful := ?_, clean := fun q => ?_
    tasks := fun q tasks failed hq => ?_
    heirs := fun q c hc => ?_, delivery := fun w q hq => ?_
    dropped := fun q hq => ⟨(h.dropped q hq).1, (h.dropped q hq).2.1, ?_⟩ }
  · by_cases hqp : q = p
    · rw [hqp]
      exact hname
    · dsimp only at hstop
      rw [update_of_ne hqp] at hstop
      exact h.named q hq hstop
  · dsimp only
    rw [update_of_ne]
    · exact h.watchful
    · rintro rfl
      rw [hready.deathWatch.1] at hname
      cases hname
  · dsimp only
    by_cases hqp : q = p
    · rw [hqp, update_self]
      rcases hstage with rfl | rfl <;> trivial
    · rw [update_of_ne hqp]
      exact h.clean q
  · dsimp only at hq
    by_cases hqp : q = p
    · rw [hqp, update_self] at hq
      rcases hstage with rfl | rfl <;> cases hq
    · rw [update_of_ne hqp] at hq
      exact h.tasks q tasks failed hq
  · dsimp only
    refine (h.heirs q c hc).imp (fun hc => ?_) fun hawaits => ?_
    · by_cases hcp : c = p
      · subst hcp
        simpa [Gone] using hgone
      · simpa [Gone, hcp] using hc
    · by_cases hqp : q = p
      · subst hqp
        obtain ⟨hlists, rfl⟩ := hheirs c hawaits
        rwa [update_self]
      · unfold Awaits at hawaits ⊢
        dsimp only
        rw [update_of_ne hqp, update_of_ne hqp]
        exact hawaits
  · refine (h.delivery w q hq).congr ?_ rfl (fun hw => ?_) (fun _ => id) id fun _ _ => id
    · dsimp only [pending]
      by_cases hqp : q = p
      · subst hqp
        rw [update_self, update_self]
        exact hpending
      · rw [update_of_ne hqp, update_of_ne hqp]
    · dsimp only at hw
      by_cases hwp : w = p
      · rw [hwp, update_self, hdown] at hw
        cases hw
      · rwa [update_of_ne hwp] at hw
  · refine Bool.eq_false_iff.mpr fun hq' => ?_
    have hstill := hrunning q hq'
    rw [(h.dropped q hq).2.2] at hstill
    cases hstill

lemma begin (hready : Ready cfg s₀) (caller : Caller) (hfree : s.free p = true)
    (hrun : (s.flags p).running = true) : Sound cfg s₀ bar (s.begin p caller) := by
  obtain ⟨hname, hidle⟩ := (free_iff s p).mp hfree
  refine h.turn hready (h.orderly.begin caller hfree hrun) hname (by simp [Flags.isRunning]) id
    (.inl (by simp)) (.inl rfl) (fun c hc => ?_) ?_
  · rw [hidle] at hc
    exact ⟨hc.2, rfl⟩
  · rw [pending, hidle, hrun]
    rfl

lemma rest (hready : Ready cfg s₀)
    (hstage : s.stage p = .leaving failed) : Sound cfg s₀ bar (s.rest p) := by
  refine h.turn hready (h.orderly.rest hstage) (h.orderly.active p (by rw [hstage]; simp)).1
    (by simp [Flags.isRunning]) (fun hrun => by cases hrun) (.inr rfl) (.inr rfl)
    (fun c hc => ?_) ?_
  · rw [hstage] at hc
    cases hc
  · rw [pending, hstage]
    rfl

/-! ## Freeing children -/

lemma heirs_children
    (hstage : s.stage p = .freeingChildren tasks failed) (c : PID) (hc : s₀.tree.Lists p c) :
    Gone s c ∨ (tasks.lookup c).isSome = true := by
  have hheirs := h.heirs p c hc
  rwa [hstage] at hheirs

/-- The goroutine of a child goes on. -/
lemma setTask {p child : PID} {task : ChildTask}
    (hstage : s.stage p = .freeingChildren tasks failed)
    (hlookup : (tasks.lookup child).isSome = true)
    (hchild : p.equals cfg.equalFold s.tree.noSender = false →
      ¬s.tree.Lists p child ∨ task = .disown) :
    Sound cfg s₀ bar (s.setStage p (.freeingChildren (tasks.insert child task) failed)) := by
  have hclean := h.clean p
  have hpending : s.pending p = none := pending_eq hstage
  rw [hstage] at hclean
  refine h.setStage (by rw [hstage]; nofun) nofun hpending.symm hclean
    ⟨?_, fun hsender => h.orderly.childless_insert hstage hsender (hchild hsender), fun c hc => ?_⟩
  · rintro tasks' failed' ⟨⟩ c hc
    rw [lookup_insert_ite] at hc
    split_ifs at hc with heq
    · rw [heq]
      exact h.tasks p tasks failed hstage child hlookup
    · exact h.tasks p tasks failed hstage c hc
  · refine (h.heirs_children hstage c hc).imp_right fun hsome => ?_
    dsimp only [Awaits]
    rw [lookup_insert_ite]
    split_ifs
    · rfl
    · exact hsome

/-- The goroutine of a child that is not to be stopped any more returns. -/
lemma endTask {p child : PID}
    (hstage : s.stage p = .freeingChildren tasks failed) (hgone : Gone s child)
    (hchild : p.equals cfg.equalFold s.tree.noSender = false → ¬s.tree.Lists p child) :
    Sound cfg s₀ bar (s.setStage p (.freeingChildren (tasks.erase child) failed)) := by
  have hclean := h.clean p
  have hpending : s.pending p = none := pending_eq hstage
  rw [hstage] at hclean
  refine h.setStage (by rw [hstage]; nofun) nofun hpending.symm hclean
    ⟨?_, fun hsender => h.orderly.childless_erase hstage hsender (hchild hsender), fun c hc => ?_⟩
  · rintro tasks' failed' ⟨⟩ c hc
    rw [lookup_erase_ite] at hc
    split_ifs at hc with heq
    · cases hc
    · exact h.tasks p tasks failed hstage c hc
  · by_cases heq : c = child
    · exact .inl (heq ▸ hgone)
    · refine (h.heirs_children hstage c hc).imp_right fun hsome => ?_
      dsimp only [Awaits]
      rwa [lookup_erase_ite, if_neg heq]

lemma resolve {parent child : PID} (hgone : Gone s child) :
    Sound cfg s₀ bar (s.resolve parent child false) := by
  unfold Lifecycle.resolve
  split
  case h_2 => exact h
  case h_1 tasks failed hstage =>
    split_ifs with htask
    · rw [Bool.or_false]
      exact h.endTask hstage hgone
        fun hsender => h.orderly.not_lists hstage hsender htask nofun nofun
    · exact h

/-! ## Telling the watchers -/

/-- An actor that has not read its watchers is registered. -/
lemma holds_of_pending (hready : Ready cfg s₀) (hp : s.stage p ≠ .idle)
    (hpending : s.pending p = none) : s.tree.Holds p := by
  have hstart := h.holds_of_active hready hp
  have hsent := ((h.delivery cfg.deathWatch p hstart).before hpending).1
  exact (h.kept p hstart).resolve_right hsent

lemma readWatchers (hready : Ready cfg s₀) (hstage : s.stage p = .hookDone) :
    Sound cfg s₀ bar (s.setStage p (.freeingWatchers (s.tree.watchers cfg.equalFold p))) := by
  have hp : s.stage p ≠ .idle := by rw [hstage]; nofun
  have hpending : s.pending p = none := pending_eq hstage
  have hheld := h.holds_of_pending hready hp hpending
  have hmem := h.orderly.intact.mem_related hheld
    (h.not_sender hready (h.holds_sub p hheld) (h.orderly.active p hp).1).1 .watchers
  refine h.restage hp nofun trivial (h.rears hstage trivial trivial) (fun _ => id) h.told h.queued
    h.handled fun w q hq => ?_
  by_cases hqp : q = p
  · subst hqp
    obtain ⟨hsent, hstill, hbar⟩ := (h.delivery w q hq).before hpending
    have hnow := pending_setStage_self s q (.freeingWatchers (s.tree.watchers cfg.equalFold q))
    refine ⟨fun hnone => (nomatch hnow.symm.trans hnone), fun todo htodo => ?_⟩
    obtain rfl := some.inj (hnow.symm.trans htodo)
    refine ⟨h.orderly.intact.nodup_watchers cfg.equalFold q, ?_, fun _ => hsent, fun hent => ?_,
      fun hb => ?_⟩
    · exact (count_eq_zero_of_not_mem hsent).le.trans zero_le_one
    · exact .inl ((hmem w).mpr (hstill hent))
    · exact ⟨fun hin => hbar hb ((hmem w).mp hin), hsent⟩
  · exact (h.delivery w q hq).congr (pending_setStage_of_ne s _ hqp) rfl id (fun _ => id) id
      fun _ _ => id

/-- The tail of the list is all that is left to tell. -/
lemma skip (hstage : s.stage p = .freeingWatchers todo) (hrun : (s.flags w).isRunning = false) :
    Sound cfg s₀ bar (s.setStage p (.freeingWatchers (todo.erase w))) := by
  have hpending : s.pending p = some todo := pending_eq hstage
  refine h.restage (by rw [hstage]; nofun) nofun trivial (h.rears hstage trivial trivial)
    (fun _ => id) h.told h.queued h.handled fun w' q hq => ?_
  by_cases hqp : q = p
  · subst hqp
    obtain ⟨hnodup, hcount, hfresh, hleft, hbar⟩ := (h.delivery w' q hq).during todo hpending
    have hnow := pending_setStage_self s q (.freeingWatchers (todo.erase w))
    refine ⟨fun hnone => (nomatch hnow.symm.trans hnone), fun todo' htodo => ?_⟩
    obtain rfl := some.inj (hnow.symm.trans htodo)
    refine ⟨hnodup.erase w, hcount, fun hin => hfresh (mem_of_mem_erase hin), fun hent => ?_,
      fun hb => ⟨fun hin => (hbar hb).1 (mem_of_mem_erase hin), (hbar hb).2⟩⟩
    refine (hleft hent).imp_left fun hin => (mem_erase_of_ne ?_).mpr hin
    rintro rfl
    exact nomatch hrun.symm.trans hent.2.1
  · exact (h.delivery w' q hq).congr (pending_setStage_of_ne s _ hqp) rfl id (fun _ => id) id
      fun _ _ => id

lemma tell (hready : Ready cfg s₀)
    (hstage : s.stage p = .freeingWatchers todo) (hmem : w ∈ todo) : Sound cfg s₀ bar { s with
      stage := update s.stage p (.releasing w (todo.erase w))
      sent := (w, p) :: s.sent
      inbox := if w = cfg.deathWatch then s.inbox ++ [p] else s.inbox } := by
  have hp : s.stage p ≠ .idle := by rw [hstage]; nofun
  have hstart := h.holds_of_active hready hp
  have hpending : s.pending p = some todo := pending_eq hstage
  refine h.restage hp nofun trivial (h.rears hstage trivial trivial)
    (subset_cons_self _ _) ?_ ?_ ?_ fun w' q hq => ?_
  · intro w' q hin
    rcases mem_cons.mp hin with heq | hold
    · cases heq
      exact ⟨hstart, (h.orderly.active p hp).1⟩
    · exact h.told w' q hold
  · intro q hin
    split_ifs at hin with heq
    · rcases mem_append.mp hin with hold | hnew
      · exact mem_cons_of_mem _ (h.queued q hold)
      · rw [mem_singleton.mp hnew, heq]
        exact mem_cons_self
    · exact mem_cons_of_mem _ (h.queued q hin)
  · intro q hin
    rcases mem_cons.mp hin with heq | hold
    · obtain ⟨hw, hq⟩ := Prod.ext_iff.mp heq
      rw [if_pos hw.symm]
      exact .inl (mem_append_right _ (mem_singleton.mpr hq))
    · refine (h.handled q hold).imp_left fun hold => ?_
      split_ifs
      · exact mem_append_left _ hold
      · exact hold
  · by_cases hqp : q = p
    · subst hqp
      obtain ⟨hnodup, hcount, hfresh, hleft, hbar⟩ := (h.delivery w' q hq).during todo hpending
      have hnow := pending_setStage_self s q (.releasing w (todo.erase w))
      refine ⟨fun hnone => (nomatch hnow.symm.trans hnone), fun todo' htodo => ?_⟩
      obtain rfl := some.inj (hnow.symm.trans htodo)
      by_cases hw : w' = w
      · subst hw
        refine ⟨hnodup.erase w', ?_, fun hin => absurd hin hnodup.not_mem_erase,
          fun _ => .inr mem_cons_self, fun hb => absurd hmem (hbar hb).1⟩
        rw [count_cons_self, count_eq_zero_of_not_mem (hfresh hmem)]
      · have hne : (w', q) ≠ (w, q) := fun heq => hw (Prod.ext_iff.mp heq).1
        refine ⟨hnodup.erase w, ?_, fun hin hsent => ?_, fun hent => ?_, fun hb => ?_⟩
        · rw [count_cons_of_ne hne.symm]
          exact hcount
        · exact hfresh (mem_of_mem_erase hin) (mem_of_ne_of_mem hne hsent)
        · exact (hleft hent).imp (mem_erase_of_ne hw).mpr (mem_cons_of_mem _)
        · exact ⟨fun hin => (hbar hb).1 (mem_of_mem_erase hin),
            fun hsent => (hbar hb).2 (mem_of_ne_of_mem hne hsent)⟩
    · have hne : (w', q) ≠ (w, p) := fun heq => hqp (Prod.ext_iff.mp heq).2
      have hsame := pending_setStage_of_ne s (.releasing w (todo.erase w)) hqp
      have hold := h.delivery w' q hq
      refine ⟨fun hnone => ?_, fun todo' htodo => ?_⟩
      · obtain ⟨hnot, hstill, hbar⟩ := hold.before (hsame.symm.trans hnone)
        exact ⟨fun hsent => hnot (mem_of_ne_of_mem hne hsent), hstill, hbar⟩
      · obtain ⟨hnodup, hcount, hfresh, hleft, hbar⟩ := hold.during todo' (hsame.symm.trans htodo)
        refine ⟨hnodup, ?_, fun hin hsent => hfresh hin (mem_of_ne_of_mem hne hsent),
          fun hent => (hleft hent).imp_right (mem_cons_of_mem _),
          fun hb => ⟨(hbar hb).1, fun hsent => (hbar hb).2 (mem_of_ne_of_mem hne hsent)⟩⟩
        rw [count_cons_of_ne hne.symm]
        exact hcount

/-! ## Deleting nodes -/

/-- An actor that has read its watchers does not run. -/
lemma not_isRunning (hpending : s.pending p = some todo) : (s.flags p).isRunning = false := by
  rcases gone_of_pending hpending with hp | hrun
  · simp [Flags.isRunning, (h.orderly.active p hp).2.2]
  · simp [Flags.isRunning, hrun]

lemma childless_of_pending (hpending : s.pending p = some todo)
    (hsender : p.equals cfg.equalFold s.tree.noSender = false) (c : PID) : ¬s.tree.Lists p c := by
  have hchildless := h.orderly.childless p hsender
  unfold pending at hpending
  cases hstage : s.stage p with
  | idle =>
    rw [hstage] at hpending hchildless
    cases hrun : (s.flags p).running with
    | true => simp [listed, hrun] at hpending
    | false => exact hchildless.resolve_left (by simp [hrun]) c
  | freeingWatchers todo' | releasing w todo' | leaving failed =>
    rw [hstage] at hchildless; exact hchildless c
  | _ => rw [hstage] at hpending; cases hpending

lemma without {y : Tree} (hy : s.tree.Without p y)
    (hpending : s.pending p = some todo) (hleaf : ∀ c, ¬s.tree.Lists p c)
    (hsent : (cfg.deathWatch, p) ∈ s.sent) : Sound cfg s₀ bar { s with tree := y } := by
  have hwatches : ∀ w q, y.Watches w q → s.tree.Watches w q :=
    fun w q hw => ((hy.watches w q).mp hw).1
  refine { h with
    orderly := h.orderly.without hy
    sender := hy.noSender.trans h.sender
    holds_sub := fun q hq => h.holds_sub q ((hy.holds q).mp hq).1
    lists_sub := fun q c hc => h.lists_sub q c ((hy.lists q c).mp hc).1
    silent := fun w q hin hw => h.silent w q hin (hwatches w q hw)
    kept := fun q hq => ?_, heirs := fun q c hc => ?_
    delivery := fun w q hq => ?_
    handled := fun q hq => (h.handled q hq).imp_right
      fun hnot hin => hnot ((hy.holds q).mp hin).1 }
  · by_cases hqp : q = p
    · exact .inr (hqp ▸ hsent)
    · exact (h.kept q hq).imp_left fun hold => (hy.holds q).mpr ⟨hold, hqp⟩
  · by_cases hcp : c = p
    · exact .inl (hcp ▸ gone_of_pending hpending)
    · refine (h.heirs q c hc).imp_right fun hawaits => ?_
      have hstill : s.tree.Lists q c → y.Lists q c := by
        refine fun hlists => (hy.lists q c).mpr ⟨hlists, ?_, hcp⟩
        rintro rfl
        exact hleaf c hlists
      dsimp only
      cases hstage : s.stage q <;> rw [hstage] at hawaits
      case idle => exact ⟨hawaits.1, hstill hawaits.2⟩
      case begun => exact hstill hawaits
      case freeingWatchees => exact hstill hawaits
      all_goals exact hawaits
  · refine (h.delivery w q hq).congr rfl rfl id (fun _ => id) (hwatches w q) ?_
    intro hnone hent hold
    refine (hy.watches w q).mpr ⟨hold, ?_, ?_⟩
    · rintro rfl
      exact nomatch (h.not_isRunning hpending).symm.trans hent.2.1
    · rintro rfl
      exact nomatch hpending.symm.trans hnone

/-- The node of an actor that the death watch was told about is deleted alone. -/
lemma deleteNode (hready : Ready cfg s₀) (hp : s.tree.Holds p)
    (hname : isSystemName p.name = false) (hpending : s.pending p = some todo)
    (hsent : (cfg.deathWatch, p) ∈ s.sent) (ranging : Ranging) :
    ∃ y, s.tree.deleteNode cfg.equalFold cfg.noSender ranging (some p) = some y ∧
      s.tree.Without p y ∧ Sound cfg s₀ bar { s with tree := y } := by
  obtain ⟨htree, hsys⟩ := h.not_sender hready (h.holds_sub p hp) hname
  have hleaf := h.childless_of_pending hpending htree
  have hsender : p.equals cfg.equalFold (s.tree.noSender.or cfg.noSender) = false := by
    cases hsome : s.tree.noSender with
    | none => exact hsys
    | some q => rwa [hsome] at htree
  obtain ⟨y, hy, hwithout⟩ := h.orderly.intact.deleteNode cfg.noSender ranging hp hleaf hsender
  exact ⟨y, hy, hwithout, h.without hwithout hpending hleaf hsent⟩

/-- What the tree has under the ID of an actor from the start is that actor. -/
lemma pid_of_node {r : Ref} (hp : s₀.tree.Holds p) (hnode : s.tree.node p.id = some r) :
    (s.tree.heap r).pid = some p := by
  obtain ⟨-, -, q, hpid, hid, -⟩ := h.orderly.intact.shape.known hnode
  obtain rfl := (h.holds_sub q ⟨r, hid.symm ▸ hnode, hpid⟩).inj hp hid
  exact hpid

lemma pending_of_sent {w p : PID} (hsent : (w, p) ∈ s.sent) : ∃ todo, s.pending p = some todo := by
  cases hpending : s.pending p with
  | none => exact absurd hsent ((h.delivery w p (h.told w p hsent).1).before hpending).1
  | some todo => exact ⟨todo, rfl⟩

/-- An actor that finished its stop was told to the death watch. -/
lemma sent_of_finished (hready : Ready cfg s₀) (hp : s₀.tree.Holds p)
    (hname : isSystemName p.name = false) (hrun : (s.flags p).running = false) :
    s.pending p = some [] ∧ (cfg.deathWatch, p) ∈ s.sent := by
  have hidle : s.stage p = .idle := by
    by_contra hactive
    rw [(h.orderly.active p hactive).2.1] at hrun
    cases hrun
  have hpending : s.pending p = some [] := by
    unfold pending
    rw [hidle, hrun]
    rfl
  have hentitled : Entitled s₀ s cfg.deathWatch p :=
    ⟨hready.watching p hp hname, h.watchful, h.loyal p⟩
  refine ⟨hpending, ?_⟩
  exact (((h.delivery cfg.deathWatch p hp).during [] hpending).2.2.2.1 hentitled).resolve_left
    not_mem_nil

/-- The lists of what is still to handle and the books may change as long as the death
watch forgets nothing it was told. -/
lemma rebook {inbox dropping accounted : List PID} {counter : ℤ} {cluster : Finset String}
    (hqueued : ∀ p ∈ inbox, (cfg.deathWatch, p) ∈ s.sent)
    (hhandled : ∀ p, (cfg.deathWatch, p) ∈ s.sent → p ∈ inbox ∨ ¬s.tree.Holds p)
    (hdropped : ∀ p ∈ dropping, s₀.tree.Holds p ∧ isSystemName p.name = false ∧
      (s.flags p).running = false) :
    Sound cfg s₀ bar { s with
      inbox, dropping, counter, accounted
      cluster } :=
  { h with
    orderly := { h.orderly with }
    delivery := fun w p hp => { h.delivery w p hp with }
    queued := hqueued
    handled := hhandled
    dropped := hdropped }

lemma dequeue (hp : ¬s.tree.Holds p) : Sound cfg s₀ bar { s with inbox := s.inbox.erase p } := by
  refine h.rebook (fun q hq => h.queued q (mem_of_mem_erase hq)) (fun q hq => ?_) h.dropped
  by_cases hqp : q = p
  · exact .inr (hqp ▸ hp)
  · exact (h.handled q hq).imp_left (mem_erase_of_ne hqp).mpr

/-- The Stop directive deletes the node of an actor, if it is still there. -/
lemma drop (hready : Ready cfg s₀) {ranging : Ranging} {tree : Tree} (hmem : p ∈ s.dropping)
    (hdelete : s.tree.deleteNode cfg.equalFold cfg.noSender ranging (some p) = some tree) :
    Sound cfg s₀ bar { s with tree, dropping := s.dropping.erase p } := by
  obtain ⟨hstart, hname, hrun⟩ := h.dropped p hmem
  have htree : Sound cfg s₀ bar { s with tree } := by
    by_cases hp : s.tree.Holds p
    · obtain ⟨hpending, hsent⟩ := h.sent_of_finished hready hstart hname hrun
      obtain ⟨y, hy, -, hsound⟩ := h.deleteNode hready hp hname hpending hsent ranging
      obtain rfl := some.inj (hdelete.symm.trans hy)
      exact hsound
    · have hnode : s.tree.node p.id = none := by
        rw [eq_none_iff_forall_ne_some]
        exact fun r hr => hp ⟨r, hr, h.pid_of_node hstart hr⟩
      rw [Tree.deleteNode_of_node_none hnode] at hdelete
      cases hdelete
      exact h
  exact htree.rebook htree.queued htree.handled fun q hq => h.dropped q (mem_of_mem_erase hq)

/-- The handler of the death watch deletes the node of the subject and nothing else. -/
lemma handle {subject pid : PID} {r : Ref} {tree : Tree} {ranging : Ranging}
    (hready : Ready cfg s₀) (hmem : subject ∈ s.inbox)
    (hnode : s.tree.node subject.id = some r) (hpid : (s.tree.heap r).pid = some pid)
    (hdelete : s.tree.deleteNode cfg.equalFold cfg.noSender ranging (some pid) = some tree) :
    Sound cfg s₀ bar { s with inbox := s.inbox.erase subject, tree } ∧ pid = subject ∧
      s.tree.Without subject tree := by
  have hsent := h.queued subject hmem
  obtain ⟨hstart, hname⟩ := h.told _ _ hsent
  obtain ⟨todo, hpending⟩ := h.pending_of_sent hsent
  obtain rfl : pid = subject := some.inj (hpid.symm.trans (h.pid_of_node hstart hnode))
  obtain ⟨y, hy, hwithout, hsound⟩ :=
    h.deleteNode hready ⟨r, hnode, hpid⟩ hname hpending hsent ranging
  obtain rfl := some.inj (hdelete.symm.trans hy)
  have hgone : ¬tree.Holds pid := fun hp => ((hwithout.holds pid).mp hp).2 rfl
  exact ⟨hsound.dequeue hgone, rfl, hwithout⟩

/-! ## Steps and runs -/

/-- A child that is neither suspended nor running is being stopped or has been. -/
lemma gone_of_down {c : PID}
    (hdown : ((s.flags c).suspended || (s.flags c).isRunning) = false) : Gone s c := by
  by_cases hidle : s.stage c = .idle
  · refine .inr ?_
    have hcalm := h.orderly.calm c hidle
    cases hrun : (s.flags c).running with
    | true => simp [Flags.isRunning, hcalm, hrun] at hdown
    | false => rfl
  · exact .inl hidle

/-- The goroutine of a child makes a step. -/
lemma freeChild (hready : Ready cfg s₀) {child : PID} (hstep : s.freeChild p child = some s') :
    Sound cfg s₀ bar s' := by
  unfold Lifecycle.freeChild at hstep
  split at hstep
  case h_2 => cases hstep
  case h_1 tasks failed hstage =>
  have hp : s.stage p ≠ .idle := by rw [hstage]; simp
  split at hstep
  case h_1 htask =>
    cases hstep
    have hnext : Sound cfg s₀ bar (s.unWatch p child) := h.unWatch child
      (hready.ne_deathWatch (h.holds_of_active hready hp) (h.orderly.active p hp).1)
    exact hnext.setTask hstage (by rw [htask]; rfl) fun _ => .inr rfl
  case h_2 htask =>
    cases hstep
    have hy := h.orderly.intact.removeDescendant p.id child.id
    have hout : ¬(s.tree.removeDescendant p.id child.id).Lists p child :=
      fun hlists => ((hy.lists p child).mp hlists).2 ⟨rfl, rfl⟩
    exact (h.disown (h.holds_of_active hready hp) hstage).setTask hstage (by rw [htask]; rfl)
      fun _ => .inl hout
  case h_3 htask =>
    have hout := fun hsender => h.orderly.not_lists hstage hsender htask nofun nofun
    split_ifs at hstep with hup <;> cases hstep
    · exact h.setTask hstage (by rw [htask]; rfl) fun hsender => .inl (hout hsender)
    · exact h.endTask hstage (h.gone_of_down (Bool.eq_false_iff.mpr hup)) hout
  case h_4 htask =>
    have hout := fun hsender => h.orderly.not_lists hstage hsender htask nofun nofun
    split_ifs at hstep with hname hrun
    · -- a system actor is nobody's child
      have hlists := h.tasks p tasks failed hstage child (by rw [htask]; rfl)
      rw [hready.family p child hlists (h.orderly.active p hp).1] at hname
      cases hname
    · obtain ⟨hfree, rfl⟩ := allow_eq_some.mp hstep
      obtain ⟨hname, hidle⟩ := (free_iff s child).mp hfree
      have hne : child ≠ p := by
        rintro rfl
        exact hp hidle
      have hparent : Sound cfg s₀ bar
          (s.setStage p (.freeingChildren (tasks.insert child .waiting) failed)) :=
        h.setTask hstage (by rw [htask]; rfl) fun hsender => .inl (hout hsender)
      refine hparent.begin hready _ ((free_iff _ child).mpr ⟨hname, ?_⟩) hrun
      rw [stage_setStage_of_ne s _ hne]
      exact hidle
    · obtain ⟨-, rfl⟩ := allow_eq_some.mp hstep
      exact h.endTask hstage (.inr (Bool.eq_false_iff.mpr hrun)) hout
  case h_5 => cases hstep
  case h_6 => cases hstep

/-- The deferred step is made and the call returns, without an error. -/
lemma finish (hready : Ready cfg s₀) (hstep : s.finish p = some s') : Sound cfg s₀ bar s' := by
  unfold Lifecycle.finish at hstep
  split at hstep <;> cases hstep
  next failed hstage =>
  have hrest := h.rest hready hstage
  have hdown : ((s.rest p).flags p).running = false := by
    simp [Lifecycle.rest, Lifecycle.setStage, setFlags]
  have hclean := h.clean p
  rw [hstage] at hclean
  cases hclean
  split
  · exact hrest
  · exact hrest.resolve (.inr hdown)
  · have hp : s.stage p ≠ .idle := by rw [hstage]; simp
    rw [if_neg Bool.false_ne_true]
    refine hrest.rebook hrest.queued hrest.handled fun q hq => ?_
    rcases mem_cons.mp hq with rfl | hold
    · exact ⟨h.holds_of_active hready hp, (h.orderly.active q hp).1, hdown⟩
    · exact hrest.dropped q hold

lemma step (hready : Ready cfg s₀) {e : Event} (hstep : Lifecycle.step cfg s e = some s')
    (hallowed : Allowed s₀ e) : Sound cfg s₀ bar s' := by
  cases e with
  | shutdown p =>
    obtain ⟨⟨hfree, hrun⟩, rfl⟩ := allow_eq_some.mp hstep
    exact h.begin hready _ hfree hrun
  | directive p =>
    obtain ⟨hfree, rfl⟩ := allow_eq_some.mp hstep
    split_ifs with hrun
    · exact h.begin hready _ hfree hrun
    · refine h.rebook h.queued h.handled fun q hq => ?_
      rcases mem_cons.mp hq with rfl | hold
      · exact ⟨hallowed, ((free_iff s q).mp hfree).1, Bool.eq_false_iff.mpr hrun⟩
      · exact h.dropped q hold
  | readWatchees p =>
    simp only [Lifecycle.step, readWatchees] at hstep
    split at hstep <;> cases hstep
    next hstage =>
    refine h.setStage (by rw [hstage]; simp) (by simp) (pending_eq hstage).symm trivial
      ⟨(by simp), fun _ => trivial, fun c hc => ?_⟩
    have hheirs := h.heirs p c hc
    rwa [hstage] at hheirs
  | freeWatchee p watched =>
    simp only [Lifecycle.step, freeWatchee] at hstep
    split at hstep
    case h_2 => cases hstep
    case h_1 todo hstage =>
    obtain ⟨hmem, rfl⟩ := allow_eq_some.mp hstep
    have hp : s.stage p ≠ .idle := by rw [hstage]; simp
    have hnext : Sound cfg s₀ bar (s.unWatch p watched) := h.unWatch watched
      (hready.ne_deathWatch (h.holds_of_active hready hp) (h.orderly.active p hp).1)
    have hstage' : (s.unWatch p watched).stage p = .freeingWatchees todo := hstage
    refine hnext.setStage hp (by simp) (pending_eq hstage').symm trivial
      ⟨(by simp), fun _ => trivial, fun c hc => ?_⟩
    have hheirs := hnext.heirs p c hc
    rwa [hstage'] at hheirs
  | readChildren p =>
    simp only [Lifecycle.step, readChildren] at hstep
    split at hstep <;> cases hstep
    next hstage =>
    have hp : s.stage p ≠ .idle := by rw [hstage]; simp
    have hpending : s.pending p = none := pending_eq hstage
    have hheld := h.holds_of_pending hready hp hpending
    have hmem := h.orderly.intact.mem_children hheld
      (h.not_sender hready (h.holds_sub p hheld) (h.orderly.active p hp).1).1
    refine h.setStage hp (by simp) hpending.symm rfl
      ⟨?_, h.orderly.childless_collect, fun c hc => ?_⟩
    · rintro tasks failed ⟨⟩ c hc
      rw [lookup_collect] at hc
      split_ifs at hc with hin
      · exact h.lists_sub p c ((hmem c).mp hin)
      · cases hc
    · have hheirs := h.heirs p c hc
      rw [hstage] at hheirs
      refine hheirs.imp_right fun hlists => ?_
      dsimp only [Awaits]
      rw [lookup_collect, if_pos ((hmem c).mpr hlists)]
      rfl
  | freeChild p child => exact h.freeChild hready hstep
  | joinChildren p =>
    simp only [Lifecycle.step, joinChildren] at hstep
    split at hstep
    case h_2 => cases hstep
    case h_1 tasks failed hstage =>
    obtain ⟨hkeys, rfl⟩ := allow_eq_some.mp hstep
    have hclean := h.clean p
    rw [hstage] at hclean
    cases hclean
    refine h.setStage (by rw [hstage]; simp) (by simp) (pending_eq hstage).symm trivial
      ⟨(by simp), fun hsender => h.orderly.childless_joined hstage hsender hkeys,
        fun c hc => ?_⟩
    refine (h.heirs_children hstage c hc).imp_right fun hsome => ?_
    rw [AList.lookup_isSome, AList.mem_keys, hkeys] at hsome
    cases hsome
  | runPostStop p ok =>
    simp only [Lifecycle.step, runPostStop] at hstep
    split at hstep <;> cases hstep
    next hstage =>
    cases ok with
    | true => exact h.advance hstage trivial trivial (pending_eq hstage).symm trivial
    | false => exact absurd rfl hallowed
  | readWatchers p =>
    simp only [Lifecycle.step, Lifecycle.readWatchers] at hstep
    split at hstep <;> cases hstep
    next hstage => exact h.readWatchers hready hstage
  | tellWatcher p watcher =>
    simp only [Lifecycle.step, tellWatcher] at hstep
    split at hstep
    case h_2 => cases hstep
    case h_1 todo hstage =>
    obtain ⟨hmem, rfl⟩ := allow_eq_some.mp hstep
    by_cases hrun : (s.flags watcher).isRunning = true
    · rw [if_pos hrun]
      exact h.tell hready hstage hmem
    · rw [if_neg hrun]
      exact h.skip hstage (Bool.eq_false_iff.mpr hrun)
  | releaseWatcher p =>
    simp only [Lifecycle.step, releaseWatcher] at hstep
    split at hstep <;> cases hstep
    next watcher todo hstage =>
    have hpending : s.pending p = some todo := pending_eq hstage
    have hp : s.stage p ≠ .idle := by rw [hstage]; simp
    have hnext : Sound cfg s₀ bar { s with tree := s.tree.removeWatcher (some p) (some watcher) } :=
      h.release (h.holds_of_active hready hp) hpending
    exact hnext.advance hstage trivial trivial hpending.symm trivial
  | leave p =>
    simp only [Lifecycle.step, leave] at hstep
    split at hstep <;> cases hstep
    next hstage => exact h.advance hstage trivial trivial (pending_eq hstage).symm rfl
  | finish p => exact h.finish hready hstep
  | callUnWatch watcher pid =>
    obtain ⟨hne, rfl⟩ := allow_eq_some.mp hstep
    exact h.unWatch _ hne
  | handleTerminated ranging subject =>
    simp only [Lifecycle.step, handleTerminated] at hstep
    split_ifs at hstep with hmem
    split at hstep
    case h_1 hnode =>
      cases hstep
      refine h.dequeue ?_
      rintro ⟨r, hr, -⟩
      cases hnode.symm.trans hr
    case h_2 r hnode =>
      split at hstep
      case h_1 => cases hstep
      case h_2 pid hpid =>
      obtain ⟨tree, hdelete, rfl⟩ := map_eq_some_iff.mp hstep
      obtain ⟨hsound, -⟩ := h.handle hready hmem hnode hpid hdelete
      exact hsound.rebook hsound.queued hsound.handled hsound.dropped
  | drop ranging p =>
    simp only [Lifecycle.step, Lifecycle.drop] at hstep
    split_ifs at hstep with hmem
    obtain ⟨tree, hdelete, rfl⟩ := map_eq_some_iff.mp hstep
    exact h.drop hready hmem hdelete

lemma run (hready : Ready cfg s₀) {events : List Event}
    (hallowed : ∀ e ∈ events, Allowed s₀ e) (hrun : (stops cfg s).run events = some s') :
    Sound cfg s₀ bar s' := by
  change events.foldlM (Lifecycle.step cfg) s = some s' at hrun
  induction events generalizing s with
  | nil =>
    cases hrun
    exact h
  | cons e events ih =>
    rw [foldlM_cons] at hrun
    obtain ⟨s₁, hstep, hrest⟩ := bind_eq_some_iff.mp hrun
    exact ih (h.step hready hstep (hallowed e mem_cons_self))
      (fun e he => hallowed e (mem_cons_of_mem _ he)) hrest

/-- From now on the watcher is known to have unwatched the actor before its stop. -/
lemma excuse {w p : PID} (hpending : s.pending p = none) (hw : ¬s.tree.Watches w p) :
    Sound cfg s₀ (fun w' p' => w' = w ∧ p' = p) s :=
  { h with
    delivery := fun w' p' hp' =>
      { before := fun hnone => by
          obtain ⟨hsent, hstill, -⟩ := (h.delivery w' p' hp').before hnone
          refine ⟨hsent, hstill, ?_⟩
          rintro ⟨rfl, rfl⟩
          exact hw
        during := fun todo htodo => by
          obtain ⟨hnodup, hcount, hfresh, hleft, -⟩ := (h.delivery w' p' hp').during todo htodo
          refine ⟨hnodup, hcount, hfresh, hleft, ?_⟩
          rintro ⟨rfl, rfl⟩
          exact nomatch hpending.symm.trans htodo } }

/-- The handler of the death watch never panics. -/
lemma handle_isSome (hready : Ready cfg s₀) (ranging : Ranging) (hp : p ∈ s.inbox) :
    (s.handleTerminated cfg ranging p).isSome = true := by
  obtain ⟨hstart, hname⟩ := h.told _ _ (h.queued p hp)
  obtain ⟨todo, hpending⟩ := h.pending_of_sent (h.queued p hp)
  unfold Lifecycle.handleTerminated
  rw [if_pos hp]
  dsimp only
  cases hnode : s.tree.node p.id with
  | none => rfl
  | some r =>
    have hpid := h.pid_of_node hstart hnode
    obtain ⟨y, hy, -⟩ := h.deleteNode hready ⟨r, hnode, hpid⟩ hname hpending (h.queued p hp) ranging
    simp only [hpid, hy, map_some, isSome_some]

lemma count_le (w p : PID) : s.sent.count (w, p) ≤ 1 := by
  by_cases hsent : (w, p) ∈ s.sent
  · obtain ⟨todo, hpending⟩ := h.pending_of_sent hsent
    exact ((h.delivery w p (h.told w p hsent).1).during todo hpending).2.1
  · rw [count_eq_zero_of_not_mem hsent]
    exact zero_le_one

end Sound

/-- Whenever `Shutdown` has taken an actor from running to stopped, each watcher that runs
and has not unwatched it was sent exactly one `Terminated` for it; nobody is ever sent two,
and a watcher that unwatched before the stop began is sent none. The death watch can handle
all of its messages, and when it has, it keeps no stopped actor registered. -/
theorem local_death_watch_reliable (hready : Ready cfg s₀) {events : List Event}
    (hallowed : ∀ e ∈ events, Allowed s₀ e) (hrun : (stops cfg s₀).run events = some s) :
    (∀ w p, (s₀.flags p).running = true → (s.flags p).running = false →
      s₀.tree.Watches w p → (s.flags w).isRunning = true → (w.id, p.id) ∉ s.unwatched →
        s.sent.count (w, p) = 1) ∧
    (∀ w p, s.sent.count (w, p) ≤ 1) ∧
    (∀ w p before after s₁, events = before ++ after → (stops cfg s₀).run before = some s₁ →
      s₁.stage p = .idle → (s₁.flags p).running = true → (w.id, p.id) ∈ s₁.unwatched →
        (w, p) ∉ s.sent) ∧
    (∀ ranging, ∀ p ∈ s.inbox, (s.handleTerminated cfg ranging p).isSome = true) ∧
    (s.inbox = [] → ∀ p, (s₀.flags p).running = true → (s.flags p).running = false →
      ¬s.tree.Holds p) := by
  have hsound := (sound_start hready).run hready hallowed hrun
  have hfinished : ∀ p, (s₀.flags p).running = true → (s.flags p).running = false →
      s.pending p = some [] ∧ s₀.tree.Holds p := by
    intro p hp hrun
    have hidle : s.stage p = .idle := by
      by_contra hactive
      rw [(hsound.orderly.active p hactive).2.1] at hrun
      cases hrun
    refine ⟨?_, (hready.live p).mpr hp⟩
    rw [pending, hidle, hrun]
    rfl
  refine ⟨fun w p hp hrun hw hlive hun => ?_, hsound.count_le, ?_,
    fun ranging p hp => hsound.handle_isSome hready ranging hp, fun hempty p hp hrun hheld => ?_⟩
  · obtain ⟨hpending, hstart⟩ := hfinished p hp hrun
    have hsent := (((hsound.delivery w p hstart).during [] hpending).2.2.2.1
      ⟨hw, hlive, hun⟩).resolve_left not_mem_nil
    exact le_antisymm (hsound.count_le w p) (count_pos_iff.mpr hsent)
  · rintro w p before after s₁ rfl hbefore hidle hlive hun
    have hsound₁ := (sound_start hready).run hready
      (fun e he => hallowed e (mem_append_left after he)) hbefore
    have hpending : s₁.pending p = none := by
      rw [pending, hidle, hlive]
      rfl
    have hafter := System.run_split hbefore hrun
    change (stops cfg s₁).run after = some s at hafter
    have hbarred := (hsound₁.excuse hpending (hsound₁.silent w p hun)).run hready
      (fun e he => hallowed e (mem_append_right before he)) hafter
    intro hsent
    obtain ⟨todo, htodo⟩ := hbarred.pending_of_sent hsent
    exact (((hbarred.delivery w p (hbarred.told w p hsent).1).during todo htodo).2.2.2.2
      ⟨rfl, rfl⟩).2 hsent
  · obtain ⟨-, hstart⟩ := hfinished p hp hrun
    have hsent := (hsound.sent_of_finished hready hstart (hsound.named p hp hrun) hrun).2
    rcases hsound.handled p hsent with hin | hnot
    · rw [hempty] at hin
      cases hin
    · exact hnot hheld

/-- An actor is stopped from outside, and its child with it; then the death watch handles
both messages. -/
def stopFamily : List Event :=
  [.shutdown parent, .readWatchees parent, .freeWatchee parent child, .readChildren parent,
    .freeChild parent child, .freeChild parent child, .freeChild parent child,
    .freeChild parent child, .readWatchees child, .readChildren child, .joinChildren child,
    .runPostStop child true, .readWatchers child, .tellWatcher child deathWatch,
    .releaseWatcher child, .leave child, .finish child, .joinChildren parent,
    .runPostStop parent true, .readWatchers parent, .tellWatcher parent userGuardian,
    .releaseWatcher parent, .tellWatcher parent deathWatch, .releaseWatcher parent, .leave parent,
    .finish parent, .handleTerminated Tree.inOrder child, .handleTerminated Tree.inOrder parent]

theorem local_death_watch_reliable_stopFamily :
    ∃ s₀ s, Ready sample s₀ ∧ (∀ e ∈ stopFamily, Allowed s₀ e) ∧
      (stops sample s₀).run stopFamily = some s ∧ s.sent.count (deathWatch, child) = 1 ∧
      s.sent.count (userGuardian, parent) ≤ 1 ∧ ¬s.tree.Holds parent := by
  have hview : (withChild.bind fun s₀ => ((stops sample s₀).run stopFamily).map fun s =>
      ((s₀.flags parent).running, (s₀.flags child).running, (s.flags parent).running,
        (s.flags child).running, s.inbox)) = some (true, true, false, false, []) := by
    decide +kernel
  obtain ⟨s₀, hs₀, hrun⟩ := bind_eq_some_iff.mp hview
  obtain ⟨s, hrun, hview⟩ := map_eq_some_iff.mp hrun
  simp only [Prod.mk.injEq] at hview
  obtain ⟨hparent, hchild, hparent', hchild', hinbox⟩ := hview
  have hready := ready_withChild hs₀
  have hallowed : ∀ e ∈ stopFamily, Allowed s₀ e := by simp [stopFamily, Allowed]
  have hsound := (sound_start hready).run hready hallowed hrun
  obtain ⟨honce, hmost, -, -, hdeleted⟩ := local_death_watch_reliable hready hallowed hrun
  have hwatching := hready.watching child ((hready.live child).mpr hchild) (by decide)
  exact ⟨s₀, s, hready, hallowed, hrun,
    honce deathWatch child hchild hchild' hwatching hsound.watchful (hsound.loyal child),
    hmost userGuardian parent, hdeleted hinbox parent hparent hparent'⟩

/-- However stops interleave, an actor that has stopped leaves no child behind: what was among its
children is stopping or has stopped too. -/
theorem no_orphans (hready : Ready cfg s₀) (hallowed : ∀ e ∈ events, Allowed s₀ e)
    (hrun : (stops cfg s₀).run events = some s) {p c : PID} (hp : (s₀.flags p).running = true)
    (hchild : c ∈ s₀.tree.children cfg.equalFold p) (hstopped : (s.flags p).running = false) :
    Gone s c := by
  have hsound := (sound_start hready).run hready hallowed hrun
  have hsender : p.equals cfg.equalFold s₀.tree.noSender = false := by
    by_contra hsender
    simp [Tree.children, hsender] at hchild
  have hlists := (hready.orderly.intact.mem_children ((hready.live p).mpr hp) hsender c).mp hchild
  have hidle : s.stage p = .idle := by
    by_contra hactive
    cases hstopped.symm.trans (hsound.orderly.active p hactive).2.1
  refine (hsound.heirs p c hlists).resolve_right fun hawaits => ?_
  rw [hidle] at hawaits
  cases hstopped.symm.trans hawaits.1

theorem no_orphans_stopFamily :
    ∃ s₀ s, (stops sample s₀).run stopFamily = some s ∧ (s.flags parent).running = false ∧
      child ∈ s₀.tree.children sample.equalFold parent ∧ Gone s child := by
  have hview : (withChild.bind fun s₀ => ((stops sample s₀).run stopFamily).map fun s =>
      ((s₀.flags parent).running, s₀.tree.children sample.equalFold parent,
        (s.flags parent).running)) = some (true, [child], false) := by decide +kernel
  obtain ⟨s₀, hs₀, hrun⟩ := bind_eq_some_iff.mp hview
  obtain ⟨s, hrun, hview⟩ := map_eq_some_iff.mp hrun
  simp only [Prod.mk.injEq] at hview
  have hchild : child ∈ s₀.tree.children sample.equalFold parent := by simp [hview.2.1]
  exact ⟨s₀, s, hrun, hview.2.2, hchild, no_orphans (ready_withChild hs₀)
    (by simp [stopFamily, Allowed]) hrun hview.1 hchild hview.2.2⟩

/-- The child's hook returns an error. -/
def stopFailing : List Event :=
  [.shutdown parent, .readWatchees parent, .freeWatchee parent child, .readChildren parent,
    .freeChild parent child, .freeChild parent child, .freeChild parent child,
    .freeChild parent child, .readWatchees child, .readChildren child, .joinChildren child,
    .runPostStop child false, .finish child, .joinChildren parent, .finish parent]

/-- An actor whose name differs from that of NoSender in case only. -/
def lookalike : PID := ⟨"goakt://sys@127.0.0.1:9000/goaktnosender", "goaktnosender", 3, by decide⟩

def withLookalike : Option Lifecycle := do
  let s ← boot sample userGuardian
  s.enroll sample userGuardian lookalike

def stopLookalike : List Event :=
  [.shutdown lookalike, .readWatchees lookalike, .readChildren lookalike, .joinChildren lookalike,
    .runPostStop lookalike true, .readWatchers lookalike, .leave lookalike, .finish lookalike]

set_option synthInstance.maxSize 4000 in
/-- When a hook fails, the actor and the one above it are stopped, nobody is told, and both
stay registered. An actor that is taken for NoSender tells nobody either. -/
theorem stopped_in_silence :
    (∃ s₀ s, Ready sample s₀ ∧ (stops sample s₀).run stopFailing = some s ∧
      ∀ p ∈ [parent, child], (s₀.flags p).running = true ∧ (s.flags p).running = false ∧
        s₀.tree.Watches deathWatch p ∧ (s.flags deathWatch).isRunning = true ∧
        (deathWatch.id, p.id) ∉ s.unwatched ∧ s.sent.count (deathWatch, p) = 0 ∧
        s.inbox = [] ∧ s.tree.Holds p) ∧
    ∃ s₀ s, withLookalike = some s₀ ∧ (stops sample s₀).run stopLookalike = some s ∧
      (s₀.flags lookalike).running = true ∧ (s.flags lookalike).running = false ∧
      s₀.tree.Watches userGuardian lookalike ∧ (s.flags userGuardian).isRunning = true ∧
      s.unwatched = [] ∧ s.sent = [] ∧ s.inbox = [] ∧ s.tree.Holds lookalike := by
  constructor
  · have hview : (withChild.bind fun s₀ => ((stops sample s₀).run stopFailing).map fun s =>
        ([parent, child].map fun p => ((s₀.flags p).running, (s.flags p).running,
          (s.tree.node p.id).bind fun r => (s.tree.heap r).pid),
        (s.flags deathWatch).isRunning, s.unwatched, s.sent, s.inbox)) =
        some ([(true, false, some parent), (true, false, some child)], true,
          [(parent.id, child.id), (parent.id, child.id)], [], []) := by
      decide +kernel
    obtain ⟨s₀, hs₀, hrun⟩ := bind_eq_some_iff.mp hview
    obtain ⟨s, hrun, hview⟩ := map_eq_some_iff.mp hrun
    simp only [map_cons, map_nil, Prod.mk.injEq, List.cons.injEq, and_true] at hview
    obtain ⟨⟨⟨hp, hp', hpid⟩, hc, hc', hcid⟩, hdw, hun, hsent, hinbox⟩ := hview
    have hready := ready_withChild hs₀
    have hholds : ∀ p, ((s.tree.node p.id).bind fun r => (s.tree.heap r).pid) = some p →
        s.tree.Holds p := fun p hpid => bind_eq_some_iff.mp hpid
    refine ⟨s₀, s, hready, hrun, fun p hmem => ?_⟩
    simp only [mem_cons, not_mem_nil, or_false] at hmem
    rw [hun, hsent]
    rcases hmem with rfl | rfl
    · exact ⟨hp, hp', hready.watching _ ((hready.live _).mpr hp) (by decide), hdw, by decide,
        rfl, hinbox, hholds _ hpid⟩
    · exact ⟨hc, hc', hready.watching _ ((hready.live _).mpr hc) (by decide), hdw, by decide,
        rfl, hinbox, hholds _ hcid⟩
  · have hview : (withLookalike.bind fun s₀ => ((stops sample s₀).run stopLookalike).map fun s =>
        ((s₀.flags lookalike).running, (s.flags lookalike).running,
          (s₀.tree.node lookalike.id).bind fun r => if (s₀.tree.heap r).pid = some lookalike then
            (s₀.tree.heap r).linkOf .watchers userGuardian.id else none,
          (s.flags userGuardian).isRunning, s.unwatched, s.sent, s.inbox,
          (s.tree.node lookalike.id).bind fun r => (s.tree.heap r).pid)) =
        some (true, false, some userGuardian, true, [], [], [], some lookalike) := by
      decide +kernel
    obtain ⟨s₀, hs₀, hrun⟩ := bind_eq_some_iff.mp hview
    obtain ⟨s, hrun, hview⟩ := map_eq_some_iff.mp hrun
    simp only [Prod.mk.injEq] at hview
    obtain ⟨hp, hp', hwatch, hguardian, hun, hsent, hinbox, hpid⟩ := hview
    obtain ⟨r, hr, hlink⟩ := bind_eq_some_iff.mp hwatch
    split_ifs at hlink with hheap
    exact ⟨s₀, s, hs₀, hrun, hp, hp', ⟨r, hr, hheap, hlink⟩, hguardian, hun, hsent, hinbox,
      bind_eq_some_iff.mp hpid⟩

end Lifecycle
end GoAkt.Actor
