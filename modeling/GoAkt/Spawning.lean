import GoAkt.ActorTreeConsistency
import GoAkt.Shutdown

/-!
# Spawning actors

`Spawn` looks for an actor of the name, `SpawnChild` for one under the child's address,
and both return it when it runs. Otherwise they start a new PID and offer it to the tree;
whatever the tree answers, the PID is returned. Starting can fail before the actor runs;
it can also fail behind that, when the metrics are registered, and then leaves a running
actor that nobody knows. A failed readiness probe stops the actor again and counts as a
start that failed.
-/
namespace GoAkt.Actor
open GoAkt.FiniteMaps GoAkt.Interleavings Function Option
namespace Lifecycle
variable {cfg : Setting} {s s' : Lifecycle}

/-- A PID that has started is counted and offered to the tree, whose error is ignored, and
the death watch comes to watch it. -/
def enroll (cfg : Setting) (s : Lifecycle) (parent pid : PID) : Option Lifecycle := do
  let (tree, _) ← s.tree.addNode cfg.equalFold cfg.noSender (some parent) (some pid)
  let tree ← tree.addWatcher cfg.equalFold cfg.noSender (some pid) (some cfg.deathWatch)
  return { s with
    tree
    flags := update s.flags pid ⟨true, false, false, false⟩
    counter := s.counter + 1 }

/-- What enrolling under a registered parent leaves, for an ID that was free. -/
structure Enrolled (cfg : Setting) (s : Lifecycle) (parent pid : PID) (tree : Tree) : Prop where
  intact : tree.Intact
  noSender : tree.noSender = s.tree.noSender.or cfg.noSender
  holds : ∀ p, tree.Holds p ↔ s.tree.Holds p ∨ p = pid
  lists : ∀ p c, tree.Lists p c ↔ s.tree.Lists p c ∨ (p = parent ∧ c = pid)
  watches : ∀ w p, s.tree.Watches w p → tree.Watches w p
  watched : pid.equals cfg.equalFold (s.tree.noSender.or cfg.noSender) = false →
    cfg.deathWatch.equals cfg.equalFold (s.tree.noSender.or cfg.noSender) = false →
    tree.Watches cfg.deathWatch pid

lemma enroll_spec (hintact : s.tree.Intact) {parent pid : PID} (hparent : s.tree.Holds parent)
    (hdeathWatch : s.tree.Holds cfg.deathWatch)
    (hsender : parent.equals cfg.equalFold (s.tree.noSender.or cfg.noSender) = false)
    (hnew : s.tree.node pid.id = none) (hcall : s.enroll cfg parent pid = some s') :
    ∃ tree, Enrolled cfg s parent pid tree ∧ s' = { s with
      tree
      flags := update s.flags pid ⟨true, false, false, false⟩
      counter := s.counter + 1 } := by
  unfold enroll at hcall
  simp only [bind_eq_bind] at hcall
  obtain ⟨⟨x, e⟩, hadd, hrest⟩ := bind_eq_some_iff.mp hcall
  obtain ⟨y, hwatch, hlast⟩ := bind_eq_some_iff.mp hrest
  cases hlast
  have hknown : (s.tree.node parent.id).isSome := by
    obtain ⟨r, hr, -⟩ := hparent
    rw [hr]
    rfl
  obtain rfl := Tree.addNode_error hsender hnew hknown hadd
  obtain ⟨hspawned, hcached⟩ := hintact.addNode hparent hadd
  refine ⟨y, ?_, rfl⟩
  have hpid : x.Holds pid := (hspawned.holds pid).mpr (.inr rfl)
  have hdw : x.Holds cfg.deathWatch := (hspawned.holds _).mpr (.inl hdeathWatch)
  have hor : x.noSender.or cfg.noSender = s.tree.noSender.or cfg.noSender := by
    rw [hcached]
    cases s.tree.noSender <;> simp
  rcases hspawned.intact.addWatcher hpid hdw hwatch with hwide | ⟨rfl, heither⟩
  · exact
      { intact := hwide.intact
        noSender := hwide.noSender.trans hcached
        holds := fun p => (hwide.holds p).trans (hspawned.holds p)
        lists := fun p c => (hwide.lists p c).trans (hspawned.lists p c)
        watches := fun w p hw =>
          (hwide.watches w p).mpr (.inl ((hspawned.watches w p).mpr (.inl hw)))
        watched := fun _ _ => (hwide.watches _ _).mpr (.inr ⟨rfl, rfl⟩) }
  · refine ⟨hspawned.intact, hcached, hspawned.holds, hspawned.lists,
      fun w p hw => (hspawned.watches w p).mpr (.inl hw), fun hp hd => ?_⟩
    rw [hor] at heither
    rcases heither with h | h
    · rw [hp] at h
      cases h
    · rw [hd] at h
      cases h

/-- An actor that is spawned before any stop makes the state no less ready. -/
lemma Ready.enroll (h : Ready cfg s) {parent pid : PID} (hparent : s.tree.Holds parent)
    (hsender : parent.equals cfg.equalFold (s.tree.noSender.or cfg.noSender) = false)
    (hnew : s.tree.node pid.id = none) (hname : isSystemName pid.name = false)
    (hpid : pid.equals cfg.equalFold (s.tree.noSender.or cfg.noSender) = false ∧
      pid.equals cfg.equalFold cfg.noSender = false)
    (hdw : cfg.deathWatch.equals cfg.equalFold (s.tree.noSender.or cfg.noSender) = false)
    (hcall : s.enroll cfg parent pid = some s') : Ready cfg s' := by
  have hrunning : (s.flags cfg.deathWatch).running = true := by
    have hdeath := h.deathWatch.2
    simp only [Flags.isRunning, Bool.and_eq_true] at hdeath
    exact hdeath.1.1
  obtain ⟨tree, henrolled, rfl⟩ :=
    enroll_spec h.intact hparent ((h.live _).mpr hrunning) hsender hnew hcall
  have hflags : ∀ p, p ≠ pid →
      update s.flags pid ⟨true, false, false, false⟩ p = s.flags p :=
    fun p hp => update_of_ne hp _ _
  refine { h with intact := henrolled.intact, live := fun p => ?_, calm := fun p => ?_
                  deathWatch := ⟨h.deathWatch.1, ?_⟩, watching := fun p hp hn => ?_
                  sender := fun p hp hn => ?_, family := fun p c hc hn => ?_ }
  · rw [henrolled.holds]
    by_cases hp : p = pid
    · subst hp
      simp
    · simp only [hp, or_false, hflags p hp]
      exact h.live p
  · by_cases hp : p = pid
    · subst hp
      simp
    · simp only [hflags p hp]
      exact h.calm p
  · have hne : cfg.deathWatch ≠ pid := by
      rintro rfl
      rw [h.deathWatch.1] at hname
      cases hname
    simp only [hflags _ hne]
    exact h.deathWatch.2
  · rcases (henrolled.holds p).mp hp with hold | rfl
    · exact henrolled.watches _ _ (h.watching p hold hn)
    · exact henrolled.watched hpid.1 hdw
  · dsimp only
    rw [henrolled.noSender]
    rcases (henrolled.holds p).mp hp with hold | rfl
    · obtain ⟨htree, hsys⟩ := h.sender p hold hn
      refine ⟨?_, hsys⟩
      cases hsome : s.tree.noSender with
      | none => exact hsys
      | some q => rwa [hsome] at htree
    · exact hpid
  · rcases (henrolled.lists p c).mp hc with hold | ⟨-, rfl⟩
    · exact h.family p c hold hn
    · exact hname

/-! ## The smallest system -/

/-- A system of a guardian and the death watch, before anything was spawned. -/
def boot (cfg : Setting) (guardian : PID) : Option Lifecycle := do
  let (tree, _) := Tree.newTree.addRootNode cfg.equalFold cfg.noSender (some guardian)
  let (tree, _) ← tree.addNode cfg.equalFold cfg.noSender (some guardian) (some cfg.deathWatch)
  return {
    tree
    flags := fun p => if p = guardian ∨ p = cfg.deathWatch then ⟨true, false, false, true⟩
      else ⟨false, false, false, false⟩
    stage := fun _ => .idle
    caller := fun _ => .outside
    sent := [], unwatched := [], inbox := [], dropping := []
    counter := 0, accounted := [], cluster := ∅ }

lemma ready_boot {guardian : PID} (hguardian : isSystemName guardian.name = true)
    (hdeathWatch : isSystemName cfg.deathWatch.name = true)
    (hne : guardian.id ≠ cfg.deathWatch.id)
    (hsender : guardian.equals cfg.equalFold cfg.noSender = false)
    (hboot : boot cfg guardian = some s) : Ready cfg s ∧ s.tree.Holds guardian := by
  have hempty : ∀ id, (Tree.newTree.cacheNoSender cfg.noSender).node id = none := fun _ => rfl
  have hnone : ∀ p, ¬(Tree.newTree.cacheNoSender cfg.noSender).Holds p := by
    rintro p ⟨r, hr, -⟩
    exact nomatch (hempty p.id).symm.trans hr
  have hstart : (Tree.newTree.cacheNoSender cfg.noSender).Intact := by
    have hsound := Tree.sound_newTree.cacheNoSender cfg.noSender
    exact ⟨hsound.shape, hsound.watched, fun hr => nomatch (hempty _).symm.trans hr⟩
  have henters := Tree.enters_registerRoot hstart.shape hstart.watched rfl (hempty guardian.id)
  have hroot : Tree.Entered _ guardian none _ := henters.entered hstart (.inl ⟨rfl, by
    rcases henters.under with ⟨hparent, -⟩ | ⟨p, -, hne, -⟩
    · exact hparent
    · exact absurd rfl hne⟩)
  have hadded : Tree.newTree.addRootNode cfg.equalFold cfg.noSender (some guardian) =
      ((Tree.newTree.cacheNoSender cfg.noSender).registerRoot guardian, none) := by
    have hequals : guardian.equals cfg.equalFold
        (Tree.newTree.cacheNoSender cfg.noSender).noSender = false := hsender
    unfold Tree.addRootNode
    simp only [hequals, hempty, Bool.false_eq_true, if_false, isSome_none]
  unfold boot at hboot
  simp only [hadded, bind_eq_bind] at hboot
  obtain ⟨⟨x, e⟩, hadd, hlast⟩ := bind_eq_some_iff.mp hboot
  cases hlast
  have hcached : ((Tree.newTree.cacheNoSender cfg.noSender).registerRoot guardian).noSender =
      cfg.noSender := rfl
  generalize (Tree.newTree.cacheNoSender cfg.noSender).registerRoot guardian = y at *
  have hheld : y.Holds guardian := (hroot.holds guardian).mpr (.inr rfl)
  obtain rfl : e = none := by
    refine Tree.addNode_error ?_ ?_ ?_ hadd
    · rw [hcached, Option.or_self]
      exact hsender
    · rw [henters.node_eq, if_neg hne.symm]
      exact hempty _
    · rw [henters.node_self]
      rfl
  obtain ⟨hspawned, -⟩ := hroot.intact.addNode hheld hadd
  have hholds : ∀ p, x.Holds p ↔ p = guardian ∨ p = cfg.deathWatch := by
    intro p
    rw [hspawned.holds, hroot.holds]
    simp [hnone p]
  have hsystem : ∀ p, x.Holds p → isSystemName p.name = true := by
    intro p hp
    rcases (hholds p).mp hp with rfl | rfl
    · exact hguardian
    · exact hdeathWatch
  refine ⟨?_, (hholds guardian).mpr (.inl rfl)⟩
  exact
    { intact := hspawned.intact
      live := fun p => by
        rw [hholds]
        dsimp only
        split_ifs with hp <;> simp [hp]
      idle := fun _ => rfl
      calm := fun p => by dsimp only; split_ifs <;> rfl
      sent := rfl
      unwatched := rfl
      inbox := rfl
      dropping := rfl
      accounted := rfl
      deathWatch := ⟨hdeathWatch, by simp [Flags.isRunning]⟩
      watching := fun p hp hn => nomatch hn.symm.trans (hsystem p hp)
      sender := fun p hp hn => nomatch hn.symm.trans (hsystem p hp)
      family := fun p c hc hn => nomatch hn.symm.trans (hsystem p hc.left) }

/-! A system with one actor and its child, on which the runs below are evaluated. -/

def userGuardian : PID :=
  ⟨"goakt://sys@127.0.0.1:9000/GoAktUserGuardian", "GoAktUserGuardian", 0, by decide⟩

def deathWatch : PID :=
  ⟨"goakt://sys@127.0.0.1:9000/GoAktDeathWatch", "GoAktDeathWatch", 1, by decide⟩

def noSender : PID := ⟨"goakt://sys@127.0.0.1:9000/GoAktNoSender", "GoAktNoSender", 2, by decide⟩

def parent : PID := ⟨"goakt://sys@127.0.0.1:9000/parent", "parent", 3, by decide⟩

def child : PID := ⟨"goakt://sys@127.0.0.1:9000/parent/child", "child", 4, by decide⟩

def sample : Setting := ⟨Tree.asciiEqualFold, some noSender, deathWatch, true⟩

def withParent : Option Lifecycle := do
  let s ← boot sample userGuardian
  s.enroll sample userGuardian parent

def withChild : Option Lifecycle := do
  let s ← withParent
  s.enroll sample parent child

lemma ready_withChild (h : withChild = some s) : Ready sample s := by
  have hboot : ((boot sample userGuardian).map fun s => (s.tree.node parent.id, s.tree.noSender)) =
      some (none, some noSender) := by decide +kernel
  have hparent : (withParent.map fun s =>
      (s.tree.node child.id, s.tree.noSender, (s.flags parent).running)) =
      some (none, some noSender, true) := by decide +kernel
  obtain ⟨s₁, hboot, hview₁⟩ := map_eq_some_iff.mp hboot
  obtain ⟨s₂, hparent, hview₂⟩ := map_eq_some_iff.mp hparent
  simp only [Prod.mk.injEq] at hview₁ hview₂
  obtain ⟨hnode₁, hsender₁⟩ := hview₁
  obtain ⟨hnode₂, hsender₂, hrunning⟩ := hview₂
  obtain ⟨hready₁, hguardian⟩ := ready_boot (by decide) (by decide) (by decide) (by decide) hboot
  have hready₂ : Ready sample s₂ := by
    refine hready₁.enroll hguardian (by rw [hsender₁]; decide) hnode₁ (by decide)
      ⟨by rw [hsender₁]; decide, by decide⟩ (by rw [hsender₁]; decide) ?_
    rw [withParent, hboot] at hparent
    exact hparent
  refine hready₂.enroll ((hready₂.live parent).mpr hrunning) (by rw [hsender₂]; decide) hnode₂
    (by decide) ⟨by rw [hsender₂]; decide, by decide⟩ (by rw [hsender₂]; decide) ?_
  rw [withChild, hparent] at h
  exact h

end Lifecycle
end GoAkt.Actor
