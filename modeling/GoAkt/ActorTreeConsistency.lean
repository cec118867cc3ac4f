import GoAkt.ActorTreeDeletion
import GoAkt.Interleavings

/-!
# Consistency of the actor tree over sequences of calls

A sequence of calls starts from a new tree. Three things go wrong in the tree as it is:
a node attached under another parent stays among the descendants of the old one, the
root node is used again after `deleteNode` has set its watch maps to `nil` or while it
still holds another root, and deleting the newer of two actors with one name drops the
name although the older one remains. A call is regular when it does none of this; after
regular calls the tree is consistent and the next regular call does not panic.
-/
namespace GoAkt.Actor
open Option GoAkt.FiniteMaps GoAkt.Forests GoAkt.Interleavings
namespace Tree

inductive Call
  | addRootNode (sys pid : Option PID)
  | addNode (sys parent pid : Option PID)
  | attachNode (sys parent pid : Option PID)
  | addOrAttachNode (sys parent pid : Option PID)
  | addWatcher (sys pid watcher : Option PID)
  | removeWatcher (watchee watcher : Option PID)
  | deleteNode (sys : Option PID) (ranging : Ranging) (pid : Option PID)
  | reset

variable (equalFold : String → String → Bool)

/-- The tree after a call, whether or not the call returned an error. -/
def perform (x : Tree) : Call → Option Tree
  | .addRootNode sys pid => some (x.addRootNode equalFold sys pid).1
  | .addNode sys parent pid => (x.addNode equalFold sys parent pid).map Prod.fst
  | .attachNode sys parent pid => (x.attachNodeLocked equalFold sys parent pid).map Prod.fst
  | .addOrAttachNode sys parent pid => (x.addOrAttachNode equalFold sys parent pid).map Prod.fst
  | .addWatcher sys pid watcher => x.addWatcher equalFold sys pid watcher
  | .removeWatcher watchee watcher => some (x.removeWatcher watchee watcher)
  | .deleteNode sys ranging pid => x.deleteNode equalFold sys ranging pid
  | .reset => some x.reset

def calls : System Tree Call where
  start := newTree
  step := perform equalFold

/-! ## Regular calls -/

/-- The nodes whose chain of parent nodes leads to `start`, `start` included. -/
def Under (x : Tree) (start r : Ref) : Prop :=
  Below (fun c p => (x.heap c).parentNode = some p) start r

section Regular
variable (x : Tree) (sys : Option PID)

/-- A new root is set where the root node holds no PID and was not deleted, which takes its watch
maps away. -/
def RegularRoot (pid : Option PID) : Prop :=
  ∀ p, pid = some p → p.equals equalFold (x.noSender.or sys) = false → x.node p.id = none →
    x.root = none ∧ ∀ side, ((x.heap x.rootNode).links side).isSome

/-- A registered node is attached to the parent it has. -/
def RegularAttach (parent pid : Option PID) : Prop :=
  ∀ q p n c, parent = some q → pid = some p → q.equals equalFold sys = false →
    x.node q.id = some n → x.node p.id = some c → (x.heap c).parentNode = some n

/-- No node that stays has the name under which a node of the subtree is indexed. -/
def RegularDelete (pid : Option PID) : Prop :=
  ∀ p start, pid = some p → p.equals equalFold (x.noSender.or sys) = false →
    x.node p.id = some start → ∀ id r key m, x.node id = some r →
    x.Under start r →
    x.names.lookup (x.heap r).name = some r → x.node key = some m →
    (x.heap m).name = (x.heap r).name → x.Under start m

end Regular

def Regular (x : Tree) : Call → Prop
  | .addRootNode sys pid => x.RegularRoot equalFold sys pid
  | .attachNode sys parent pid => x.RegularAttach equalFold sys parent pid
  | .addOrAttachNode sys parent pid => x.RegularAttach equalFold sys parent pid
  | .deleteNode sys _ pid => x.RegularDelete equalFold sys pid
  | .addNode _ _ _ | .addWatcher _ _ _ | .removeWatcher _ _ | .reset => True

/-! ## One call -/

/-- A registered root node has its watch maps. -/
def Rooted (x : Tree) : Prop :=
  ∀ id, x.node id = some x.rootNode → ∀ side, ((x.heap x.rootNode).links side).isSome

structure Sound (x : Tree) : Prop where
  shape : Shape x
  joined : Joined x
  watched : Watched x
  named : Named x
  rooted : Rooted x

variable {equalFold} {x y : Tree} {sys : Option PID}

lemma Rooted.congr (h : Rooted x) (ha : Alike x y) : Rooted y := by
  intro id hid side
  rw [ha.node, ha.rootNode] at hid
  rw [ha.rootNode]
  exact ((ha.heap _).maps side).trans (h id hid side)

lemma Sound.maps (h : Sound x) {id : String} {r : Ref} (hr : x.node id = some r) (side : Side) :
    ((x.heap r).links side).isSome := by
  by_cases hroot : r = x.rootNode
  · subst hroot
    exact h.rooted id hr side
  · exact h.shape.maps hr hroot side

lemma Sound.congr (h : Sound x) (ha : Alike x y)
    (hlinked : ∀ m side, (y.heap m).linked side = (x.heap m).linked side) : Sound y :=
  ⟨h.shape.congr ha, Joined.congr h.joined ha, h.watched.congr_links ha hlinked,
    Named.congr h.named ha, h.rooted.congr ha⟩

lemma Sound.cacheNoSender (h : Sound x) (sys : Option PID) : Sound (x.cacheNoSender sys) :=
  h.congr ⟨fun _ => .refl _, rfl, rfl, rfl, rfl, rfl⟩ fun _ _ => rfl

lemma Enters.sound (h : Sound x) {pid : PID} {r : Ref} (he : Enters x pid r y)
    (hmaps : r = x.rootNode → ∀ side, ((y.heap r).links side).isSome) : Sound y := by
  refine ⟨he.shape h.shape, he.joined h.joined, he.watched h.watched, he.named h.named, ?_⟩
  intro id hid side
  rw [he.rootNode] at hid ⊢
  by_cases hr : x.rootNode = r
  · rw [hr]
    exact hmaps hr.symm side
  · rw [he.node_eq] at hid
    rw [he.links_eq hr]
    split_ifs at hid with hnew
    · exact absurd (Option.some.inj hid).symm hr
    · exact h.rooted id hid side

lemma acyclic_of_empty (h : ∀ id, x.node id = none) (r : Ref) :
    ¬Relation.TransGen x.Listed r r := by
  intro hcycle
  obtain ⟨p, -, pid, id, hp, -⟩ := Relation.TransGen.tail'_iff.mp hcycle
  rw [h] at hp
  cases hp

lemma sound_newTree : Sound newTree where
  shape :=
    { root_lt := Nat.zero_lt_one
      known := nofun
      listed := nofun
      acyclic := fun r hr => acyclic_of_empty (x := newTree) (fun _ => rfl) r hr
      parent_ne := nofun
      rootless := nofun
      maps := nofun
      name := nofun
      count := rfl
      root_known := nofun
      root_blank := fun _ => ⟨rfl, fun _ => rfl⟩ }
  joined := nofun
  watched := ⟨nofun, fun _ side => by cases side <;> rfl⟩
  named := nofun
  rooted := nofun

lemma sound_reset (x : Tree) : Sound x.reset := by
  have hroot : x.reset.heap x.reset.rootNode = PidNode.newPidNode none := Function.update_self _ _ _
  refine ⟨⟨Nat.lt_succ_self _, nofun, nofun, acyclic_of_empty fun _ => rfl, nofun, nofun, nofun,
    nofun, rfl, ?_, ?_⟩, nofun, ⟨nofun, ?_⟩, nofun, nofun⟩
  · rw [hroot]
    exact nofun
  · rw [hroot]
    exact fun _ => ⟨rfl, fun _ => rfl⟩
  · rw [hroot]
    exact fun _ side => by cases side <;> rfl

section
variable (h : Sound x)
include h

lemma Sound.addRootNode (pid : Option PID) (hregular : x.RegularRoot equalFold sys pid) :
    Sound (x.addRootNode equalFold sys pid).1 := by
  cases pid with
  | none => exact h
  | some pid =>
    have hcached := h.cacheNoSender sys
    unfold Tree.addRootNode
    dsimp only
    split_ifs with hsender hknown
    · exact hcached
    · exact hcached
    · have hnew : x.node pid.id = none := not_isSome_iff_eq_none.mp hknown
      obtain ⟨hroot, hmaps⟩ := hregular pid rfl (Bool.eq_false_iff.mpr hsender) hnew
      refine (enters_registerRoot hcached.shape hcached.watched hroot hnew).sound hcached
        fun _ side => ?_
      unfold registerRoot
      rw [heap_modify, if_pos rfl]
      cases side with
      | watchers => exact hmaps .watchers
      | watchees => exact hmaps .watchees

lemma Sound.link_pair {a b : Ref} {ida idb : String} (pa pb : PID) (side : Side)
    (ha : x.node ida = some a) (hb : x.node idb = some b)
    (hmapa : ((x.heap a).links side).isSome) (hmapb : ((x.heap b).links side.opposite).isSome) :
    ∃ z, (∀ {γ : Type} (f : Tree → Option γ), ((x.link a side idb pb).bind fun y =>
      (y.link b side.opposite ida pa).bind f) = f z) ∧ Sound z := by
  obtain ⟨y, hy⟩ := link_isSome idb pb hmapa
  have hmaps := ((link_eq_some hy).1.heap b).maps side.opposite
  obtain ⟨z, hz⟩ := link_isSome (x := y) ida pa (hmaps.trans hmapb)
  obtain ⟨halike, hwatched⟩ := h.watched.link_pair h.shape ha hb hy hz
  refine ⟨z, fun f => ?_, h.shape.congr halike, Joined.congr h.joined halike, hwatched,
    Named.congr h.named halike, h.rooted.congr halike⟩
  rw [hy, bind_some, hz, bind_some]

lemma Sound.addNodeLocked (parent pid : Option PID) :
    ∃ y e, x.addNodeLocked equalFold sys parent pid = some (y, e) ∧ Sound y := by
  unfold Tree.addNodeLocked
  split
  · exact ⟨_, _, rfl, h⟩
  · exact ⟨_, _, rfl, h⟩
  next parent pid =>
    have hcached := h.cacheNoSender sys
    dsimp only
    split_ifs with hsender hknown
    · exact ⟨_, _, rfl, hcached⟩
    · exact ⟨_, _, rfl, hcached⟩
    split
    · exact ⟨_, _, rfl, hcached⟩
    next p hp =>
      have hnew : x.node pid.id = none := not_isSome_iff_eq_none.mp hknown
      have hmap := hcached.maps hp .watchees
      have henters := enters_register hcached.shape hp hmap hnew
      have hsound := henters.sound hcached fun hroot => absurd hroot hcached.shape.root_lt.ne'
      have hne := henters.ne hp
      obtain ⟨z, hz, hfinal⟩ := hsound.link_pair parent pid .watchees
        (henters.node_of_node hp) henters.node_self
        (by rw [henters.links_eq hne]; exact hmap)
        (hsound.shape.maps henters.node_self (hcached.shape.root_lt.ne') _)
      exact ⟨z, none, hz _, hfinal⟩

lemma Sound.attachNodeLocked (parent pid : Option PID)
    (hregular : x.RegularAttach equalFold sys parent pid) :
    ∃ y e, x.attachNodeLocked equalFold sys parent pid = some (y, e) ∧ Sound y := by
  unfold Tree.attachNodeLocked
  split
  · exact ⟨_, _, rfl, h⟩
  · exact ⟨_, _, rfl, h⟩
  next parent pid =>
    dsimp only
    split_ifs with hsender
    · exact ⟨_, _, rfl, h⟩
    split
    · exact ⟨_, _, rfl, h⟩
    next p hp =>
      split
      · exact ⟨_, _, rfl, h⟩
      next c hc =>
        have hparent := hregular parent pid p c rfl rfl (Bool.eq_false_iff.mpr hsender) hp hc
        have halike := alike_reattach h.joined hc hparent
        have hlinked : ∀ m side, ((((x.modify c (·.setParent (some p))).modify p
            (·.addDescendant pid.id c)).heap m).linked side) = (x.heap m).linked side := by
          intro m side
          rw [heap_modify, heap_modify]
          split_ifs <;> cases side <;> rfl
        have hsound := h.congr halike hlinked
        have hnotroot : c ≠ x.rootNode := by
          intro hroot
          rw [(h.shape.rootless hc).mpr hroot] at hparent
          cases hparent
        obtain ⟨z, hz, hfinal⟩ := hsound.link_pair parent pid .watchees
          ((halike.node _).trans hp) ((halike.node _).trans hc)
          (((halike.heap p).maps _).trans (h.joined hc hparent).2.2)
          (((halike.heap c).maps _).trans (h.shape.maps hc hnotroot _))
        exact ⟨z, none, hz _, hfinal⟩

lemma Sound.addOrAttachNode (parent pid : Option PID)
    (hregular : x.RegularAttach equalFold sys parent pid) :
    ∃ y e, x.addOrAttachNode equalFold sys parent pid = some (y, e) ∧ Sound y := by
  unfold Tree.addOrAttachNode
  split
  · exact ⟨_, _, rfl, h⟩
  · exact ⟨_, _, rfl, h⟩
  next parent pid =>
    split_ifs
    · exact ⟨_, _, rfl, h⟩
    · exact h.attachNodeLocked _ _ hregular
    · exact h.addNodeLocked _ _

lemma Sound.addWatcher (pid watcher : Option PID) :
    ∃ y, x.addWatcher equalFold sys pid watcher = some y ∧ Sound y := by
  unfold Tree.addWatcher
  split
  next pid watcher =>
    dsimp only
    split_ifs with hsender
    · exact ⟨_, rfl, h⟩
    split
    next n m hn hm =>
      obtain ⟨z, hz, hfinal⟩ := h.link_pair pid watcher .watchers hn hm (h.maps hn _) (h.maps hm _)
      have hlinked := hz some
      simp only [bind_fun_some] at hlinked
      exact ⟨z, hlinked, hfinal⟩
    next => exact ⟨_, rfl, h⟩
  next => exact ⟨_, rfl, h⟩

lemma Sound.removeWatcher (watchee watcher : Option PID) :
    Sound (x.removeWatcher watchee watcher) := by
  cases watchee with
  | none => exact h
  | some watchee =>
  cases watcher with
  | none => exact h
  | some watcher =>
    obtain ⟨halike, hwatched⟩ := h.watched.removeWatcher h.shape watchee watcher
    exact ⟨h.shape.congr halike, Joined.congr h.joined halike, hwatched,
      Named.congr h.named halike, h.rooted.congr halike⟩

/-- In a sound tree the listed nodes below a node are those under it. -/
lemma Sound.below_iff {start r : Ref} {id : String} (hr : x.node id = some r) :
    Below x.Listed start r ↔ x.Under start r := by
  constructor
  · refine Relation.ReflTransGen.mono ?_ r start
    rintro c p ⟨pid, key, hp, hc⟩
    exact (h.shape.listed hp hc).2
  · intro hunder
    induction hunder using Relation.ReflTransGen.head_induction_on generalizing id with
    | refl => exact .refl
    | head hparent _ ih =>
      obtain ⟨hknown, hlisted, -⟩ := h.joined hr hparent
      exact Below.child ⟨_, id, hknown, hlisted⟩ (ih hknown)

end

/-- What `deleteNode` does: nothing for a PID that is `nil`, NoSender or unknown, and for
any other PID the removal of its node and all nodes below it. -/
structure Deletes (equalFold : String → String → Bool) (x : Tree) (sys : Option PID)
    (pid : Option PID) (y : Tree) : Prop where
  ignored : (∀ p, pid = some p → p.equals equalFold (x.noSender.or sys) = true ∨
    x.node p.id = none) → y = x
  removed : ∀ p start, pid = some p → p.equals equalFold (x.noSender.or sys) = false →
    x.node p.id = some start → ∀ id r, y.node id = some r ↔ x.node id = some r ∧ ¬x.Under start r
  unmentioned : ∀ p start, pid = some p → p.equals equalFold (x.noSender.or sys) = false →
    x.node p.id = some start → ∀ id r, y.node id = some r → ∀ key m, x.node key = some m →
    x.Under start m → (y.heap r).parentNode ≠ some m ∧
      (y.heap r).descendants.lookup key = none ∧ ∀ side, key ∉ (y.heap r).linked side

lemma Sound.deleteNode (h : Sound x) (ranging : Ranging) (pid : Option PID)
    (hregular : x.RegularDelete equalFold sys pid) :
    ∃ y, x.deleteNode equalFold sys ranging pid = some y ∧ Sound y ∧
      Deletes equalFold x sys pid y := by
  cases pid with
  | none => exact ⟨x, rfl, h, fun _ => rfl, nofun, nofun⟩
  | some pid =>
    unfold Tree.deleteNode
    dsimp only
    split_ifs with hsender
    · refine ⟨x, rfl, h, fun _ => rfl, ?_, ?_⟩
      · rintro p start ⟨⟩ hp
        rw [hsender] at hp
        cases hp
      · rintro p start ⟨⟩ hp
        rw [hsender] at hp
        cases hp
    split
    next hnone =>
      refine ⟨x, rfl, h, fun _ => rfl, ?_, ?_⟩
      · rintro p start ⟨⟩ - hp
        rw [hnone] at hp
        cases hp
      · rintro p start ⟨⟩ - hp
        rw [hnone] at hp
        cases hp
    next start hstart =>
      obtain ⟨post, hpost, hmem, hdeleted⟩ := h.shape.deleted_subtree h.watched ranging hstart
      have hsender' : pid.equals equalFold (x.noSender.or sys) = false := by simpa using hsender
      have hnode : ∀ id r, (post.reverse.foldl removeNode x).node id = some r ↔
          x.node id = some r ∧ ¬x.Under start r := by
        intro id r
        rw [hdeleted.node, hmem]
        exact and_congr_right fun hr => not_congr (h.below_iff hr)
      have hjoined : Joined (post.reverse.foldl removeNode x) := hdeleted.joined h.joined
      refine ⟨_, by rw [hpost]; rfl, ⟨hdeleted.shape, hjoined, hdeleted.watched, ?_, ?_⟩,
        ?_, ?_, ?_⟩
      · -- a name that is dropped was held by a removed node
        intro id r hr
        obtain ⟨hr', hout⟩ := hdeleted.node.mp hr
        rw [hdeleted.name hout]
        obtain ⟨m, hm⟩ := isSome_iff_exists.mp (h.named hr')
        obtain ⟨hknown, hname⟩ := h.shape.name hm
        have hstays : m ∉ post := by
          intro hin
          have hbelow := (h.below_iff hknown).mp ((hmem m).mp hin)
          rw [← hname] at hm
          exact ((hnode id r).mp hr).2
            (hregular pid start rfl hsender' hstart _ m id r hknown hbelow hm hr' hname.symm)
        rw [hdeleted.names.mpr ⟨hm, hstays⟩]
        rfl
      · intro id hid side
        rw [hdeleted.rootNode] at hid ⊢
        obtain ⟨hid, hout⟩ := hdeleted.node.mp hid
        rw [hdeleted.maps hout]
        exact h.rooted id hid side
      · intro hignored
        rcases hignored pid rfl with htrue | hnone
        · rw [hsender'] at htrue
          cases htrue
        · rw [hnone] at hstart
          cases hstart
      · rintro p start' ⟨⟩ - hp
        rw [hstart] at hp
        cases hp
        exact hnode
      · rintro p start' ⟨⟩ - hp id r hr key m hm hbelow
        rw [hstart] at hp
        cases hp
        have hgone : ∀ m', (post.reverse.foldl removeNode x).node key ≠ some m' := by
          intro m' hm'
          obtain ⟨hm', hnot⟩ := (hnode key m').mp hm'
          rw [hm] at hm'
          cases hm'
          exact hnot hbelow
        refine ⟨fun hparent => ?_, ?_, fun side hkey => ?_⟩
        · exact ((hnode _ _).mp (hjoined hr hparent).1).2 hbelow
        · refine eq_none_iff_forall_not_mem.mpr fun c hc => ?_
          exact hgone c (hdeleted.shape.listed hr hc).1
        · obtain ⟨m', hm', -⟩ := hdeleted.watched.back hr hkey
          exact hgone m' hm'

lemma Sound.perform (h : Sound x) (call : Call) (hregular : x.Regular equalFold call) :
    ∃ y, x.perform equalFold call = some y ∧ Sound y := by
  cases call with
  | addRootNode sys pid => exact ⟨_, rfl, h.addRootNode pid hregular⟩
  | addNode sys parent pid =>
    obtain ⟨y, e, hy, hsound⟩ := h.addNodeLocked parent pid
    exact ⟨y, congrArg (Option.map Prod.fst) hy, hsound⟩
  | attachNode sys parent pid =>
    obtain ⟨y, e, hy, hsound⟩ := h.attachNodeLocked parent pid hregular
    exact ⟨y, congrArg (Option.map Prod.fst) hy, hsound⟩
  | addOrAttachNode sys parent pid =>
    obtain ⟨y, e, hy, hsound⟩ := h.addOrAttachNode parent pid hregular
    exact ⟨y, congrArg (Option.map Prod.fst) hy, hsound⟩
  | addWatcher sys pid watcher => exact h.addWatcher pid watcher
  | removeWatcher watchee watcher => exact ⟨_, rfl, h.removeWatcher watchee watcher⟩
  | deleteNode sys ranging pid =>
    obtain ⟨y, hy, hsound, -⟩ := h.deleteNode ranging pid hregular
    exact ⟨y, hy, hsound⟩
  | reset => exact ⟨_, rfl, sound_reset x⟩

/-! ## Sequences of calls -/

/-- Regular calls do not panic and keep the invariant. -/
lemma sound_of_regular (events : List Call)
    (h : ¬(calls equalFold).Took (fun x call => ¬x.Regular equalFold call) events) :
    ∃ x, (calls equalFold).run events = some x ∧ Sound x := by
  induction events using List.reverseRecOn with
  | nil => exact ⟨newTree, rfl, sound_newTree⟩
  | append_singleton events call ih =>
    have hpast : ¬(calls equalFold).Took (fun x call => ¬x.Regular equalFold call) events := by
      rintro ⟨past, e, s, hpre, hrest⟩
      exact h ⟨past, e, s, hpre.trans (List.prefix_append _ _), hrest⟩
    obtain ⟨x, hx, hsound⟩ := ih hpast
    have hregular : x.Regular equalFold call := by
      by_contra hnot
      exact h ((System.took_concat hx call).mpr (.inr hnot))
    obtain ⟨y, hy, hsound'⟩ := hsound.perform call hregular
    exact ⟨y, ((calls equalFold).run_concat events call y).mpr ⟨x, hx, hy⟩, hsound'⟩

/-- The five redundant maps agree. -/
structure Consistent (x : Tree) : Prop where
  count : x.count = x.pids.keys.length
  descendants : ∀ pid p, x.node pid = some p → ∀ id r,
    (x.heap p).descendants.lookup id = some r ↔ x.node id = some r ∧ (x.heap r).parentNode = some p
  parents : ∀ id r p, x.node id = some r → (x.heap r).parentNode = some p →
    x.node (x.heap p).id = some p
  watching : ∀ a ra b rb, x.node a = some ra → x.node b = some rb →
    (a ∈ (x.heap rb).linked .watchers ↔ b ∈ (x.heap ra).linked .watchees)
  watched : ∀ id r side key, x.node id = some r → key ∈ (x.heap r).linked side →
    ∃ m, x.node key = some m
  names : ∀ name, (∃ id r, x.node id = some r ∧ (x.heap r).name = name) ↔
    ∃ id r, x.nodeByName name = some r ∧ x.node id = some r ∧ (x.heap r).name = name

lemma Sound.consistent (h : Sound x) : Consistent x where
  count := h.shape.count
  descendants _ _ hp _ _ := ⟨h.shape.listed hp, fun ⟨hr, hparent⟩ => (h.joined hr hparent).2.1⟩
  parents _ _ _ hr hp := (h.joined hr hp).1
  watching a ra b rb ha hb := by
    constructor
    · intro hwatch
      obtain ⟨m, hm, hback⟩ := h.watched.back hb hwatch
      rw [ha] at hm
      cases hm
      exact hback
    · intro hwatch
      obtain ⟨m, hm, hback⟩ := h.watched.back ha hwatch
      rw [hb] at hm
      cases hm
      exact hback
  watched _ _ _ _ hr hkey := by
    obtain ⟨m, hm, -⟩ := h.watched.back hr hkey
    exact ⟨m, hm⟩
  names name := by
    constructor
    · rintro ⟨id, r, hr, rfl⟩
      obtain ⟨m, hm⟩ := isSome_iff_exists.mp (h.named hr)
      obtain ⟨hknown, hname⟩ := h.shape.name hm
      obtain ⟨pid, -, -, hpid⟩ := (h.shape.known hr).2.2
      refine ⟨_, m, ?_, hknown, hname⟩
      unfold nodeByName
      rw [if_neg (hpid ▸ pid.named)]
      exact hm
    · rintro ⟨id, r, -, hr, hname⟩
      exact ⟨id, r, hr, hname⟩

/-- A sequence of regular calls never panics, leaves a consistent tree, and a regular
`deleteNode` then removes exactly its subtree. -/
theorem actor_tree_consistent (equalFold : String → String → Bool) (events : List Call)
    (h : ¬(calls equalFold).Took (fun x call => ¬x.Regular equalFold call) events) :
    ∃ x, (calls equalFold).run events = some x ∧ Consistent x ∧
      ∀ sys ranging pid, x.RegularDelete equalFold sys pid →
        ∃ y, x.deleteNode equalFold sys ranging pid = some y ∧ Deletes equalFold x sys pid y := by
  obtain ⟨x, hx, hsound⟩ := sound_of_regular events h
  refine ⟨x, hx, hsound.consistent, fun sys ranging pid hregular => ?_⟩
  obtain ⟨y, hy, -, hdeletes⟩ := hsound.deleteNode ranging pid hregular
  exact ⟨y, hy, hdeletes⟩

/-! ## Runs of calls that can be checked

`strings.EqualFold` on ASCII strings, and a test that a call must pass to be taken.
-/

def asciiEqualFold (a b : String) : Bool := a.toList.map Char.toLower == b.toList.map Char.toLower

/-- The node of a PID, if registered, hangs under the registered parent. -/
def hangsUnder (x : Tree) (parent pid : Option PID) : Bool :=
  (parent.bind fun q => x.node q.id).elim true fun n =>
    (pid.bind fun p => x.node p.id).elim true fun c => decide ((x.heap c).parentNode = some n)

def settled (x : Tree) : Call → Bool
  | .addRootNode _ _ => x.root.isNone && ((x.heap x.rootNode).links .watchers).isSome &&
      ((x.heap x.rootNode).links .watchees).isSome
  | .attachNode _ parent pid => x.hangsUnder parent pid
  | .addOrAttachNode _ parent pid => x.hangsUnder parent pid
  | .deleteNode _ _ _ => decide (x.pids.entries.map fun e => (x.heap e.2).name).Nodup
  | .addNode _ _ _ | .addWatcher _ _ _ | .removeWatcher _ _ | .reset => true

lemma hangsUnder_spec {parent pid : PID} {n c : Ref}
    (h : x.hangsUnder (some parent) (some pid) = true) (hn : x.node parent.id = some n)
    (hc : x.node pid.id = some c) : (x.heap c).parentNode = some n := by
  unfold hangsUnder at h
  rw [bind_some, bind_some, hn, hc, elim_some, elim_some,
    decide_eq_true_eq] at h
  exact h

lemma regularAttach_of_hangsUnder {parent pid : Option PID}
    (h : x.hangsUnder parent pid = true) : x.RegularAttach equalFold sys parent pid := by
  rintro q p n c rfl rfl - hn hc
  exact hangsUnder_spec h hn hc

lemma regular_of_settled (call : Call) (h : x.settled call = true) : x.Regular equalFold call := by
  cases call with
  | addRootNode sys pid =>
    intro p _ _ _
    simp only [settled, Bool.and_eq_true, isNone_iff_eq_none] at h
    refine ⟨h.1.1, fun side => ?_⟩
    cases side with
    | watchers => exact h.1.2
    | watchees => exact h.2
  | attachNode sys parent pid => exact regularAttach_of_hangsUnder h
  | addOrAttachNode sys parent pid => exact regularAttach_of_hangsUnder h
  | deleteNode sys ranging pid =>
    intro p start _ _ _ id r key m hr hbelow _ hm hname
    have hinj := List.inj_on_of_nodup_map (decide_eq_true_eq.mp h)
      ((mem_entries_iff_lookup _ _ _).mpr hm) ((mem_entries_iff_lookup _ _ _).mpr hr) hname
    cases hinj
    exact hbelow
  | addNode | addWatcher | removeWatcher | reset => trivial

/-! ## Runs that show the difference -/

def rootGuardian : PID := ⟨"goakt://sys@127.0.0.1:9000/root", "root", 0, by decide⟩
def left : PID := ⟨"goakt://sys@127.0.0.1:9000/root/left", "left", 1, by decide⟩
def right : PID := ⟨"goakt://sys@127.0.0.1:9000/root/right", "right", 2, by decide⟩
def leaf : PID := ⟨"goakt://sys@127.0.0.1:9000/left/leaf", "leaf", 3, by decide⟩
def otherLeaf : PID := ⟨"goakt://sys@127.0.0.1:9000/right/leaf", "leaf", 4, by decide⟩

def inOrder : Ranging := ⟨id, fun _ => .refl _⟩

/-- A child is added, watched, attached again and deleted with its parent, and the parent is
added once more. -/
def regrown : List Call :=
  [.addRootNode none (some rootGuardian), .addNode none (some rootGuardian) (some left),
    .addNode none (some rootGuardian) (some right), .addOrAttachNode none (some left) (some leaf),
    .addWatcher none (some leaf) (some right), .attachNode none (some left) (some leaf),
    .deleteNode none inOrder (some left), .addOrAttachNode none (some rootGuardian) (some left)]

theorem actor_tree_consistent_regrown :
    ∃ x, (calls asciiEqualFold).run regrown = some x ∧ x.count = 3 ∧ Consistent x := by
  obtain ⟨x, hx, hregular, hcount⟩ := System.exists_safe_run (calls asciiEqualFold) regrown
    (fun x => x.count = 3) (Q := fun x call => ¬x.Regular asciiEqualFold call)
    (fun x call hsettled hnot => hnot (regular_of_settled call hsettled)) (by decide +kernel)
  obtain ⟨y, hy, hconsistent, -⟩ := actor_tree_consistent asciiEqualFold regrown hregular
  rw [hx] at hy
  cases hy
  exact ⟨x, hx, hcount, hconsistent⟩

def startedOver : List Call :=
  [.addRootNode none (some rootGuardian), .deleteNode none inOrder (some rootGuardian),
    .addRootNode none (some rootGuardian), .addNode none (some rootGuardian) (some left)]

def reattached : List Call :=
  [.addRootNode none (some rootGuardian), .addNode none (some rootGuardian) (some left),
    .addNode none (some rootGuardian) (some right), .addNode none (some left) (some leaf),
    .addOrAttachNode none (some right) (some leaf)]

def sameName : List Call :=
  [.addRootNode none (some rootGuardian), .addNode none (some rootGuardian) (some left),
    .addNode none (some rootGuardian) (some right), .addNode none (some left) (some leaf),
    .addNode none (some right) (some otherLeaf), .deleteNode none inOrder (some otherLeaf)]

/-- Starting over after the root was deleted panics, a node attached to another parent is
still among the descendants of the first, and once the second of two nodes with one name
is deleted the first is not found by its name. -/
theorem actor_tree_inconsistent :
    (calls asciiEqualFold).run startedOver = none ∧
    (∃ x, (calls asciiEqualFold).run reattached = some x ∧ ¬Consistent x) ∧
    ∃ x, (calls asciiEqualFold).run sameName = some x ∧ ¬Consistent x := by
  refine ⟨?_, ?_, ?_⟩
  · have hrun : ((calls asciiEqualFold).run startedOver).isNone = true := by decide +kernel
    exact isNone_iff_eq_none.mp hrun
  · obtain ⟨x, hx, hleft, hlookup, hparent⟩ : ∃ x, (calls asciiEqualFold).run reattached = some x ∧
        x.node left.id = some 1 ∧ (x.heap 1).descendants.lookup leaf.id = some 3 ∧
        (x.heap 3).parentNode = some 2 := System.exists_run (by decide +kernel)
    refine ⟨x, hx, fun h => ?_⟩
    have hleaf := ((h.descendants left.id 1 hleft leaf.id 3).mp hlookup).2
    rw [hparent] at hleaf
    cases hleaf
  · obtain ⟨x, hx, hleaf, hname, hfound⟩ : ∃ x, (calls asciiEqualFold).run sameName = some x ∧
        x.node leaf.id = some 3 ∧ (x.heap 3).name = "leaf" ∧ x.nodeByName "leaf" = none :=
      System.exists_run (by decide +kernel)
    refine ⟨x, hx, fun h => ?_⟩
    obtain ⟨id, r, hr, -⟩ := (h.names "leaf").mp ⟨leaf.id, 3, hleaf, hname⟩
    rw [hfound] at hr
    cases hr

end Tree
end GoAkt.Actor
