import GoAkt.ActorTree

/-!
# What the calls keep in the tree

The invariant has several parts. The shape says that the two indexes and the listed
descendants describe one forest of registered nodes, in which each listed node has the
node that lists it as its parent. The watch relation says that what one registered node
mentions is registered and mentions it back. Where no actor was disowned, every node is
also listed by its parent. Calls are taken through their effects: two
trees that differ in the watch maps only have the same shape, and a removed leaf is
described by what is left of every index.
-/
namespace GoAkt.Actor
open GoAkt.FiniteMaps GoAkt.Forests Function

/-! ## One node -/

namespace PidNode
variable (n : PidNode) (side other : Side) (key id : String)

lemma links_setLinks (m : Option (Map String PID)) :
    (n.setLinks m side).links other = if other = side then m else n.links other := by
  cases side <;> cases other <;> rfl

lemma linked_eq_of_links {n n' : PidNode} (h : n'.links side = n.links side) :
    n'.linked side = n.linked side := by
  unfold linked
  rw [h]

lemma mem_linked_iff : key ∈ n.linked side ↔ ∃ w, n.linkOf side key = some w := by
  unfold linked linkOf
  cases n.links side with
  | none => simp
  | some m =>
    rw [Option.elim_some, Option.bind_some]
    exact mem_keys_iff_lookup m key

lemma linkOf_unlink :
    (n.unlink side id).linkOf other key =
      if other = side ∧ key = id then none else n.linkOf other key := by
  unfold linkOf unlink
  rw [links_setLinks]
  by_cases h : other = side
  · subst h
    cases n.links other with
    | none => simp
    | some m => simpa using lookup_erase_ite m id key
  · simp [h]

lemma linkOf_setLinks_none :
    (n.setLinks none side).linkOf other key =
      if other = side then none else n.linkOf other key := by
  unfold linkOf
  rw [links_setLinks]
  split_ifs <;> rfl

variable {m : Map String PID}

lemma linkOf_insert (hm : n.links side = some m) (pid : PID) :
    (n.setLinks (some (m.insert id pid)) side).linkOf other key =
      if other = side ∧ key = id then some pid else n.linkOf other key := by
  unfold linkOf
  rw [links_setLinks]
  by_cases h : other = side
  · subst h
    rw [if_pos rfl, Option.bind_some, lookup_insert_ite, hm, Option.bind_some]
    simp
  · simp [h]

lemma mem_linked_setLinks_none :
    key ∈ (n.setLinks none side).linked other ↔ key ∈ n.linked other ∧ other ≠ side := by
  rw [mem_linked_iff, mem_linked_iff, linkOf_setLinks_none]
  split_ifs with h <;> simp [h]

lemma mem_linked_unlink :
    key ∈ (n.unlink side id).linked other ↔ key ∈ n.linked other ∧ ¬(other = side ∧ key = id) := by
  rw [mem_linked_iff, mem_linked_iff, linkOf_unlink]
  split_ifs with h <;> simp [h]

lemma isSome_links_unlink : ((n.unlink side id).links other).isSome = (n.links other).isSome := by
  unfold unlink
  rw [links_setLinks]
  split_ifs with h
  · subst h
    simp
  · rfl

/-- Everything about a node apart from what its watch maps hold. -/
structure Alike (n n' : PidNode) : Prop where
  pid : n'.pid = n.pid
  parentNode : n'.parentNode = n.parentNode
  id : n'.id = n.id
  name : n'.name = n.name
  descendants : ∀ key, n'.descendants.lookup key = n.descendants.lookup key
  maps : ∀ side, (n'.links side).isSome = (n.links side).isSome

lemma Alike.refl (n : PidNode) : Alike n n := ⟨rfl, rfl, rfl, rfl, fun _ => rfl, fun _ => rfl⟩

lemma Alike.trans {n n' n'' : PidNode} (h : Alike n n') (h' : Alike n' n'') : Alike n n'' where
  pid := h'.pid.trans h.pid
  parentNode := h'.parentNode.trans h.parentNode
  id := h'.id.trans h.id
  name := h'.name.trans h.name
  descendants key := (h'.descendants key).trans (h.descendants key)
  maps side := (h'.maps side).trans (h.maps side)

lemma alike_unlink : Alike n (n.unlink side id) := by
  refine ⟨?_, ?_, ?_, ?_, ?_, fun other => isSome_links_unlink n side other id⟩ <;>
    cases side <;> intros <;> rfl

lemma alike_setLinks (hm : n.links side = some m) (m' : Map String PID) :
    Alike n (n.setLinks (some m') side) := by
  refine ⟨?_, ?_, ?_, ?_, ?_, fun other => ?_⟩
  · cases side <;> rfl
  · cases side <;> rfl
  · cases side <;> rfl
  · cases side <;> rfl
  · intro key
    cases side <;> rfl
  · rw [links_setLinks]
    split_ifs with h
    · subst h
      simp [hm]
    · rfl

end PidNode

open PidNode
namespace Tree
variable {x y : Tree}

lemma heap_modify (x : Tree) (r m : Ref) (f : PidNode → PidNode) :
    (x.modify r f).heap m = if m = r then f (x.heap m) else x.heap m := by
  unfold modify
  split_ifs with h
  · subst h
    exact update_self _ _ _
  · exact update_of_ne h _ _

/-! ## The invariant -/

/-- A registered node that is among the descendants of a registered node. -/
def Listed (x : Tree) (c p : Ref) : Prop :=
  ∃ pid id, x.node pid = some p ∧ (x.heap p).descendants.lookup id = some c

/-- The indexes and the listed descendants describe one forest. -/
structure Shape (x : Tree) : Prop where
  root_lt : x.rootNode < x.next
  known : ∀ {id r}, x.node id = some r → r < x.next ∧ (x.heap r).id = id ∧
    ∃ pid, (x.heap r).pid = some pid ∧ pid.id = id ∧ pid.name = (x.heap r).name
  listed : ∀ {pid p}, x.node pid = some p → ∀ {id r},
    (x.heap p).descendants.lookup id = some r → x.node id = some r ∧ (x.heap r).parentNode = some p
  acyclic : ∀ r, ¬Relation.TransGen x.Listed r r
  parent_ne : ∀ {id r}, x.node id = some r → (x.heap r).parentNode ≠ some r
  rootless : ∀ {id r}, x.node id = some r → ((x.heap r).parentNode = none ↔ r = x.rootNode)
  maps : ∀ {id r}, x.node id = some r → r ≠ x.rootNode → ∀ side, ((x.heap r).links side).isSome
  name : ∀ {name r}, x.names.lookup name = some r →
    x.node (x.heap r).id = some r ∧ (x.heap r).name = name
  count : x.counter = x.pids.keys.length
  root_known : (x.heap x.rootNode).pid.isSome → x.node (x.heap x.rootNode).id = some x.rootNode
  root_blank : (x.heap x.rootNode).pid = none → (x.heap x.rootNode).parentNode = none ∧
    ∀ id, (x.heap x.rootNode).descendants.lookup id = none

/-- Every node that has a parent is listed by it. -/
def Joined (x : Tree) : Prop :=
  ∀ {id r p}, x.node id = some r → (x.heap r).parentNode = some p →
    x.node (x.heap p).id = some p ∧ (x.heap p).descendants.lookup id = some r ∧
      ((x.heap p).links .watchees).isSome

/-- What a registered node mentions is registered and mentions it back. -/
structure Watched (x : Tree) : Prop where
  back : ∀ {id r}, x.node id = some r → ∀ {side key}, key ∈ (x.heap r).linked side →
    ∃ m, x.node key = some m ∧ id ∈ (x.heap m).linked side.opposite
  root_blank : (x.heap x.rootNode).pid = none → ∀ side, (x.heap x.rootNode).linked side = []

/-- The name of every registered node is in the index of names. -/
def Named (x : Tree) : Prop :=
  ∀ {id r}, x.node id = some r → (x.names.lookup (x.heap r).name).isSome

/-- Two trees that differ in what the watch maps hold and in the cached NoSender. -/
structure Alike (x y : Tree) : Prop where
  heap : ∀ r, (x.heap r).Alike (y.heap r)
  next : y.next = x.next
  rootNode : y.rootNode = x.rootNode
  pids : y.pids = x.pids
  names : y.names = x.names
  counter : y.counter = x.counter

lemma Alike.node (h : Alike x y) (id : String) : y.node id = x.node id := by
  unfold Tree.node
  rw [h.pids]

lemma Alike.trans {z : Tree} (h : Alike x y) (h' : Alike y z) : Alike x z where
  heap r := (h.heap r).trans (h'.heap r)
  next := h'.next.trans h.next
  rootNode := h'.rootNode.trans h.rootNode
  pids := h'.pids.trans h.pids
  names := h'.names.trans h.names
  counter := h'.counter.trans h.counter

variable {r : Ref}

lemma alike_modify (x : Tree) {f : PidNode → PidNode}
    (h : (x.heap r).Alike (f (x.heap r))) : Alike x (x.modify r f) where
  heap m := by
    rw [heap_modify]
    split_ifs with hm
    · exact hm ▸ h
    · exact .refl _
  next := rfl
  rootNode := rfl
  pids := rfl
  names := rfl
  counter := rfl

lemma Alike.listed_iff (h : Alike x y) (c p : Ref) : y.Listed c p ↔ x.Listed c p := by
  unfold Listed
  simp only [h.node, (h.heap p).descendants]

lemma Shape.congr (hx : Shape x) (h : Alike x y) : Shape y where
  root_lt := by rw [h.rootNode, h.next]; exact hx.root_lt
  known {id r} hr := by
    rw [h.node] at hr
    rw [h.next, (h.heap r).id, (h.heap r).pid, (h.heap r).name]
    exact hx.known hr
  listed {pid p} hp {id r} hr := by
    rw [h.node] at hp
    rw [(h.heap p).descendants] at hr
    rw [h.node, (h.heap r).parentNode]
    exact hx.listed hp hr
  acyclic r hr := hx.acyclic r (Relation.TransGen.mono (fun c p => (h.listed_iff c p).mp) r r hr)
  parent_ne {id r} hr := by
    rw [h.node] at hr
    rw [(h.heap r).parentNode]
    exact hx.parent_ne hr
  rootless {id r} hr := by
    rw [h.node] at hr
    rw [(h.heap r).parentNode, h.rootNode]
    exact hx.rootless hr
  maps {id r} hr hne side := by
    rw [h.node] at hr
    rw [h.rootNode] at hne
    exact ((h.heap r).maps side).trans (hx.maps hr hne side)
  name {name r} hname := by
    rw [h.names] at hname
    rw [h.node, (h.heap r).id, (h.heap r).name]
    exact hx.name hname
  count := by rw [h.counter, h.pids]; exact hx.count
  root_known hroot := by
    rw [h.rootNode, (h.heap _).pid] at hroot
    rw [h.rootNode, h.node, (h.heap _).id]
    exact hx.root_known hroot
  root_blank hroot := by
    rw [h.rootNode, (h.heap _).pid] at hroot
    rw [h.rootNode, (h.heap _).parentNode]
    obtain ⟨hparent, hnone⟩ := hx.root_blank hroot
    exact ⟨hparent, fun id => ((h.heap _).descendants id).trans (hnone id)⟩

lemma Named.congr (hx : Named x) (h : Alike x y) : Named y := by
  intro id r hr
  rw [h.node] at hr
  rw [h.names, (h.heap r).name]
  exact hx hr

lemma Joined.congr (hx : Joined x) (h : Alike x y) : Joined y := by
  intro id r p hr hp
  rw [h.node] at hr
  rw [(h.heap r).parentNode] at hp
  obtain ⟨hknown, hlisted, hmap⟩ := hx hr hp
  rw [h.node, (h.heap p).id, (h.heap p).descendants]
  exact ⟨hknown, hlisted, ((h.heap p).maps .watchees).trans hmap⟩

lemma Shape.node_inj (hx : Shape x) {id id' : String} (h : x.node id = some r)
    (h' : x.node id' = some r) : id = id' :=
  (hx.known h).2.1.symm.trans (hx.known h').2.1

/-! ## Watching -/

variable {side : Side}

lemma link_eq_some {id : String} {pid : PID}
    (h : x.link r side id pid = some y) : Alike x y ∧ (∀ m other key,
      key ∈ (y.heap m).linked other ↔
        key ∈ (x.heap m).linked other ∨ (m = r ∧ other = side ∧ key = id)) := by
  obtain ⟨m, hm, rfl⟩ := Option.map_eq_some_iff.mp h
  refine ⟨alike_modify x ((x.heap r).alike_setLinks side hm _), fun r' other key => ?_⟩
  rw [heap_modify]
  split_ifs with hr
  · subst hr
    rw [mem_linked_iff, mem_linked_iff, linkOf_insert _ _ _ _ _ hm]
    split_ifs with h <;> simp [h]
  · simp [hr]

lemma link_isSome (id : String) (pid : PID)
    (h : ((x.heap r).links side).isSome) : ∃ y, x.link r side id pid = some y := by
  obtain ⟨m, hm⟩ := Option.isSome_iff_exists.mp h
  exact ⟨_, by rw [link, hm, Option.map_some]⟩

/-- Both halves of a watch relation between registered nodes. -/
lemma Watched.link_pair (hx : Shape x) (hw : Watched x) {a b : Ref} {ida idb : String}
    {pa pb : PID} {z : Tree} (ha : x.node ida = some a) (hb : x.node idb = some b)
    (hy : x.link a side idb pb = some y) (hz : y.link b side.opposite ida pa = some z) :
    Alike x z ∧ Watched z := by
  obtain ⟨hxy, hmem⟩ := link_eq_some hy
  obtain ⟨hyz, hmem'⟩ := link_eq_some hz
  have hxz := hxy.trans hyz
  have hlinked : ∀ m other key, key ∈ (z.heap m).linked other ↔
      key ∈ (x.heap m).linked other ∨ (m = a ∧ other = side ∧ key = idb) ∨
        (m = b ∧ other = side.opposite ∧ key = ida) := by
    intro m other key
    rw [hmem', hmem, or_assoc]
  have hopp : ∀ s : Side, s.opposite.opposite = s := by
    intro s
    cases s <;> rfl
  refine ⟨hxz, fun {id r} hr {other key} hkey => ?_, fun hroot other => ?_⟩
  · rw [hxz.node] at hr
    simp only [hxz.node, hlinked] at hkey ⊢
    rcases hkey with hkey | ⟨rfl, rfl, rfl⟩ | ⟨rfl, rfl, rfl⟩
    · obtain ⟨m, hm, hback⟩ := hw.back hr hkey
      exact ⟨m, hm, .inl hback⟩
    · exact ⟨b, hb, .inr (.inr ⟨rfl, rfl, hx.node_inj hr ha⟩)⟩
    · exact ⟨a, ha, .inr (.inl ⟨rfl, hopp side, hx.node_inj hr hb⟩)⟩
  · rw [hxz.rootNode, (hxz.heap _).pid] at hroot
    have hunknown : ∀ {id}, x.node id ≠ some x.rootNode := by
      intro id hid
      obtain ⟨pid, hpid, -⟩ := (hx.known hid).2.2
      rw [hroot] at hpid
      cases hpid
    refine List.eq_nil_iff_forall_not_mem.mpr fun key hkey => ?_
    rw [hxz.rootNode, hlinked, hw.root_blank hroot] at hkey
    rcases hkey with hkey | ⟨rfl, -⟩ | ⟨rfl, -⟩
    · cases hkey
    · exact hunknown ha
    · exact hunknown hb

/-! ## Registering -/

lemma length_keys_insert {m : Map String Ref} {id : String} (h : m.lookup id = none) (r : Ref) :
    (m.insert id r).keys.length = m.keys.length + 1 := by
  have hnew : id ∉ m := AList.lookup_eq_none.mp h
  unfold AList.keys
  rw [AList.entries_insert_of_notMem hnew]
  rfl

/-- An unregistered node object `r` becomes the node of a new PID: the root without a
parent, or any other object under a registered parent. -/
structure Enters (x : Tree) (pid : PID) (r : Ref) (y : Tree) : Prop where
  new : x.node pid.id = none
  fresh : ∀ id, x.node id ≠ some r
  next_le : x.next ≤ y.next
  lt_next : r < y.next
  rootNode : y.rootNode = x.rootNode
  pids : y.pids = x.pids.insert pid.id r
  names : y.names = x.names.insert pid.name r
  counter : y.counter = x.counter + 1
  self : (y.heap r).pid = some pid ∧ (y.heap r).id = pid.id ∧ (y.heap r).name = pid.name
  childless : ∀ id, (y.heap r).descendants.lookup id = none
  unlinked : ∀ side, (y.heap r).linked side = []
  pid_eq : ∀ {m}, m ≠ r → (y.heap m).pid = (x.heap m).pid
  id_eq : ∀ {m}, m ≠ r → (y.heap m).id = (x.heap m).id
  name_eq : ∀ {m}, m ≠ r → (y.heap m).name = (x.heap m).name
  parent_eq : ∀ {m}, m ≠ r → (y.heap m).parentNode = (x.heap m).parentNode
  links_eq : ∀ {m}, m ≠ r → ∀ side, (y.heap m).links side = (x.heap m).links side
  descendants : ∀ {m}, m ≠ r → ∀ id, (y.heap m).descendants.lookup id =
    if (y.heap r).parentNode = some m ∧ id = pid.id then some r
    else (x.heap m).descendants.lookup id
  under : ((y.heap r).parentNode = none ∧ r = x.rootNode) ∨
    ∃ p, (y.heap r).parentNode = some p ∧ r ≠ x.rootNode ∧
      x.node (x.heap p).id = some p ∧ ((x.heap p).links .watchees).isSome ∧
      ∀ side, ((y.heap r).links side).isSome

namespace Enters
variable {pid : PID} {r : Ref}

lemma node_eq (h : Enters x pid r y) (id : String) :
    y.node id = if id = pid.id then some r else x.node id := by
  unfold Tree.node
  rw [h.pids]
  exact lookup_insert_ite x.pids pid.id id r

variable {id : String} {m : Ref}

section
variable (h : Enters x pid r y)
include h

lemma ne (hm : x.node id = some m) : m ≠ r := by
  rintro rfl
  exact h.fresh id hm

/-- A registered node is the new one or was registered before. -/
lemma node_cases (hm : y.node id = some m) :
    (id = pid.id ∧ m = r) ∨ (x.node id = some m ∧ m ≠ r) := by
  rw [h.node_eq] at hm
  split_ifs at hm with hid
  · exact .inl ⟨hid, (Option.some.inj hm).symm⟩
  · exact .inr ⟨hm, h.ne hm⟩

lemma node_self : y.node pid.id = some r := by
  rw [h.node_eq, if_pos rfl]

lemma node_of_node (hm : x.node id = some m) : y.node id = some m := by
  rw [h.node_eq, if_neg]
  · exact hm
  · rintro rfl
    rw [h.new] at hm
    cases hm

end

lemma listed (hx : Shape x) (h : Enters x pid r y) {qid : String} {q : Ref}
    (hq : y.node qid = some q) (hm : (y.heap q).descendants.lookup id = some m) :
    y.node id = some m ∧ (y.heap m).parentNode = some q := by
  rcases h.node_cases hq with ⟨-, rfl⟩ | ⟨hq, hne⟩
  · rw [h.childless] at hm
    cases hm
  · rw [h.descendants hne] at hm
    split_ifs at hm with hcase
    · obtain ⟨hparent, rfl⟩ := hcase
      cases hm
      exact ⟨h.node_self, hparent⟩
    · obtain ⟨hm, hparent⟩ := hx.listed hq hm
      exact ⟨h.node_of_node hm, (h.parent_eq (h.ne hm)).trans hparent⟩

/-- A link is an old one or that of the new node, under which nothing is listed yet. -/
lemma listed_cases (h : Enters x pid r y) {c p : Ref} (hc : y.Listed c p) :
    p ≠ r ∧ (c = r ∨ x.Listed c p) := by
  obtain ⟨key, id, hp, hc⟩ := hc
  rcases h.node_cases hp with ⟨-, rfl⟩ | ⟨hp, hne⟩
  · rw [h.childless] at hc
    cases hc
  · refine ⟨hne, ?_⟩
    rw [h.descendants hne] at hc
    split_ifs at hc
    · exact .inl (Option.some.inj hc).symm
    · exact .inr ⟨key, id, hp, hc⟩

lemma acyclic (hx : Shape x) (h : Enters x pid r y) (m : Ref) :
    ¬Relation.TransGen y.Listed m m := by
  -- nothing is listed under the new node, so a chain never arrives there
  have hchain : ∀ {a b}, Relation.TransGen y.Listed a b →
      b ≠ r ∧ (a = r ∨ Relation.TransGen x.Listed a b) := by
    intro a b hab
    induction hab with
    | single hstep =>
      obtain ⟨hne, hold⟩ := h.listed_cases hstep
      exact ⟨hne, hold.imp_right .single⟩
    | tail _ hstep ih =>
      obtain ⟨hne, hold⟩ := h.listed_cases hstep
      obtain ⟨hmid, hpath⟩ := ih
      refine ⟨hne, hpath.imp_right fun hpath => ?_⟩
      exact hpath.tail (hold.resolve_left hmid)
  intro hcycle
  obtain ⟨hne, hpath⟩ := hchain hcycle
  exact hx.acyclic m (hpath.resolve_left hne)

lemma shape (hx : Shape x) (h : Enters x pid r y) : Shape y where
  root_lt := by
    rw [h.rootNode]
    exact hx.root_lt.trans_le h.next_le
  known {id m} hm := by
    rcases h.node_cases hm with ⟨rfl, rfl⟩ | ⟨hm, hne⟩
    · obtain ⟨hpid, hid, hname⟩ := h.self
      exact ⟨h.lt_next, hid, pid, hpid, rfl, hname.symm⟩
    · obtain ⟨hlt, hrest⟩ := hx.known hm
      rw [h.id_eq hne, h.pid_eq hne, h.name_eq hne]
      exact ⟨hlt.trans_le h.next_le, hrest⟩
  listed {_ _} hq {_ _} hm := h.listed hx hq hm
  acyclic := h.acyclic hx
  parent_ne {id m} hm := by
    rcases h.node_cases hm with ⟨rfl, rfl⟩ | ⟨hm, hne⟩
    · rcases h.under with ⟨hnone, -⟩ | ⟨p, hp, -, hknown, -⟩
      · rw [hnone]
        exact nofun
      · rw [hp]
        exact fun hself => h.ne hknown (Option.some.inj hself)
    · rw [h.parent_eq hne]
      exact hx.parent_ne hm
  rootless {id m} hm := by
    rw [h.rootNode]
    rcases h.node_cases hm with ⟨rfl, rfl⟩ | ⟨hm, hne⟩
    · rcases h.under with ⟨hnone, hroot⟩ | ⟨p, hp, hroot, -⟩
      · exact iff_of_true hnone hroot
      · exact iff_of_false (by rw [hp]; exact nofun) hroot
    · rw [h.parent_eq hne]
      exact hx.rootless hm
  maps {id m} hm hroot side := by
    rw [h.rootNode] at hroot
    rcases h.node_cases hm with ⟨rfl, rfl⟩ | ⟨hm, hne⟩
    · rcases h.under with ⟨-, hroot'⟩ | ⟨p, -, -, -, -, hmaps⟩
      · exact absurd hroot' hroot
      · exact hmaps side
    · rw [h.links_eq hne]
      exact hx.maps hm hroot side
  name {name m} hname := by
    rw [h.names, lookup_insert_ite] at hname
    split_ifs at hname with hn
    · cases hname
      rw [h.self.2.1, hn]
      exact ⟨h.node_self, h.self.2.2⟩
    · obtain ⟨hm, hn'⟩ := hx.name hname
      rw [h.id_eq (h.ne hm), h.name_eq (h.ne hm)]
      exact ⟨h.node_of_node hm, hn'⟩
  count := by
    rw [h.counter, h.pids, length_keys_insert h.new, hx.count]
    push_cast
    rfl
  root_known hroot := by
    rw [h.rootNode] at hroot ⊢
    by_cases hr : x.rootNode = r
    · rw [hr, h.self.2.1]
      exact h.node_self
    · rw [h.pid_eq hr] at hroot
      rw [h.id_eq hr]
      exact h.node_of_node (hx.root_known hroot)
  root_blank hroot := by
    rw [h.rootNode] at hroot ⊢
    have hr : x.rootNode ≠ r := by
      intro hr
      rw [hr, h.self.1] at hroot
      cases hroot
    rw [h.pid_eq hr] at hroot
    obtain ⟨hparent, hnone⟩ := hx.root_blank hroot
    refine ⟨(h.parent_eq hr).trans hparent, fun id => ?_⟩
    rw [h.descendants hr, if_neg]
    · exact hnone id
    · rintro ⟨hp, -⟩
      -- the parent of the new node is registered, an unset root is not
      rcases h.under with ⟨hnone, -⟩ | ⟨p, hp', -, hknown, -⟩
      · rw [hnone] at hp
        cases hp
      · rw [hp'] at hp
        cases hp
        obtain ⟨pid', hpid', -⟩ := (hx.known hknown).2.2
        rw [hroot] at hpid'
        cases hpid'

lemma watched (hw : Watched x) (h : Enters x pid r y) : Watched y where
  back {id m} hm {side key} hkey := by
    rcases h.node_cases hm with ⟨rfl, rfl⟩ | ⟨hm, hne⟩
    · rw [h.unlinked] at hkey
      cases hkey
    · rw [linked_eq_of_links side (h.links_eq hne side)] at hkey
      obtain ⟨m', hm', hback⟩ := hw.back hm hkey
      refine ⟨m', h.node_of_node hm', ?_⟩
      rw [linked_eq_of_links side.opposite (h.links_eq (h.ne hm') side.opposite)]
      exact hback
  root_blank hroot side := by
    rw [h.rootNode] at hroot ⊢
    have hr : x.rootNode ≠ r := by
      intro hr
      rw [hr, h.self.1] at hroot
      cases hroot
    rw [h.pid_eq hr] at hroot
    rw [linked_eq_of_links side (h.links_eq hr side)]
    exact hw.root_blank hroot side

lemma joined (hj : Joined x) (h : Enters x pid r y) : Joined y := by
  intro id m p hm hp
  rcases h.node_cases hm with ⟨rfl, rfl⟩ | ⟨hm, hne⟩
  · rcases h.under with ⟨hnone, -⟩ | ⟨p', hp', -, hknown, hmap, -⟩
    · rw [hnone] at hp
      cases hp
    · obtain rfl : p' = p := Option.some.inj (hp'.symm.trans hp)
      have hpr := h.ne hknown
      rw [h.id_eq hpr, h.links_eq hpr, h.descendants hpr, if_pos ⟨hp', rfl⟩]
      exact ⟨h.node_of_node hknown, rfl, hmap⟩
  · rw [h.parent_eq hne] at hp
    obtain ⟨hknown, hlisted, hmap⟩ := hj hm hp
    have hpr := h.ne hknown
    rw [h.id_eq hpr, h.links_eq hpr, h.descendants hpr, if_neg]
    · exact ⟨h.node_of_node hknown, hlisted, hmap⟩
    · rintro ⟨-, rfl⟩
      rw [h.new] at hm
      cases hm

lemma named (hn : Named x) (h : Enters x pid r y) : Named y := by
  intro id m hm
  rw [h.names, lookup_insert_ite]
  split_ifs with hname
  · rfl
  · rcases h.node_cases hm with ⟨rfl, rfl⟩ | ⟨hm, hne⟩
    · exact absurd h.self.2.2 hname
    · rw [h.name_eq hne]
      exact hn hm

end Enters

lemma heap_register {p : Ref} (hp : p ≠ x.next) (pid : PID) (m : Ref) :
    (x.register p pid).heap m =
      if m = p then (x.heap m).addDescendant pid.id x.next
      else if m = x.next then (PidNode.newPidNode (some pid)).setParent (some p)
      else x.heap m := by
  unfold register
  dsimp only
  rw [heap_modify]
  split_ifs with h h'
  · subst h
    dsimp only
    rw [update_of_ne hp]
  · subst h'
    exact update_self _ _ _
  · exact update_of_ne h' _ _

lemma enters_register (hx : Shape x) {parentID : String} {p : Ref} {pid : PID}
    (hp : x.node parentID = some p) (hmaps : ((x.heap p).links .watchees).isSome)
    (hnew : x.node pid.id = none) : Enters x pid x.next (x.register p pid) := by
  obtain ⟨hlt, hid, -⟩ := hx.known hp
  have hchild : (x.register p pid).heap x.next =
      (newPidNode (some pid)).setParent (some p) := by
    rw [heap_register hlt.ne, if_neg hlt.ne', if_pos rfl]
  have hkept : ∀ {m}, m ≠ x.next → (x.register p pid).heap m =
      if m = p then (x.heap m).addDescendant pid.id x.next else x.heap m := by
    intro m hm
    rw [heap_register hlt.ne, if_neg hm]
  refine
    { new := hnew
      fresh := fun id hfresh => lt_irrefl _ (hx.known hfresh).1
      next_le := Nat.le_succ _
      lt_next := Nat.lt_succ_self _
      rootNode := rfl
      pids := rfl
      names := rfl
      counter := rfl
      self := by rw [hchild]; exact ⟨rfl, rfl, rfl⟩
      childless := fun id => by rw [hchild]; rfl
      unlinked := fun side => by rw [hchild]; cases side <;> rfl
      pid_eq := fun hm => by rw [hkept hm]; split_ifs <;> rfl
      id_eq := fun hm => by rw [hkept hm]; split_ifs <;> rfl
      name_eq := fun hm => by rw [hkept hm]; split_ifs <;> rfl
      parent_eq := fun hm => by rw [hkept hm]; split_ifs <;> rfl
      links_eq := fun hm side => by rw [hkept hm]; split_ifs <;> cases side <;> rfl
      descendants := fun {m} hm id => ?_
      under := .inr ⟨p, by rw [hchild]; rfl, hx.root_lt.ne', hid.symm ▸ hp, hmaps, ?_⟩ }
  · have hparent : ((x.register p pid).heap x.next).parentNode = some p := by rw [hchild]; rfl
    rw [hkept hm, hparent]
    by_cases hmp : m = p
    · subst hmp
      rw [if_pos rfl]
      refine (lookup_insert_ite _ _ _ _).trans ?_
      simp
    · rw [if_neg hmp, if_neg]
      rintro ⟨h, -⟩
      exact hmp (Option.some.inj h).symm
  · intro side
    rw [hchild]
    cases side <;> rfl

lemma enters_registerRoot (hx : Shape x) (hw : Watched x) {pid : PID} (hroot : x.root = none)
    (hnew : x.node pid.id = none) : Enters x pid x.rootNode (x.registerRoot pid) := by
  have hheap : ∀ m, (x.registerRoot pid).heap m =
      if m = x.rootNode then (x.heap m).setPid pid else x.heap m :=
    fun m => heap_modify x x.rootNode m (·.setPid pid)
  have hself : (x.registerRoot pid).heap x.rootNode = (x.heap x.rootNode).setPid pid := by
    rw [hheap, if_pos rfl]
  have hkept : ∀ {m}, m ≠ x.rootNode → (x.registerRoot pid).heap m = x.heap m := by
    intro m hm
    rw [hheap, if_neg hm]
  obtain ⟨hparent, hchildless⟩ := hx.root_blank hroot
  refine
    { new := hnew
      fresh := fun id hid => ?_
      next_le := le_rfl
      lt_next := hx.root_lt
      rootNode := rfl
      pids := rfl
      names := rfl
      counter := rfl
      self := by rw [hself]; exact ⟨rfl, rfl, rfl⟩
      childless := fun id => by rw [hself]; exact hchildless id
      unlinked := fun side => ?_
      pid_eq := fun hm => by rw [hkept hm]
      id_eq := fun hm => by rw [hkept hm]
      name_eq := fun hm => by rw [hkept hm]
      parent_eq := fun hm => by rw [hkept hm]
      links_eq := fun hm side => by rw [hkept hm]
      descendants := fun {m} hm id => ?_
      under := .inl ⟨by rw [hself]; exact hparent, rfl⟩ }
  · obtain ⟨pid', hpid', -⟩ := (hx.known hid).2.2
    rw [show (x.heap x.rootNode).pid = none from hroot] at hpid'
    cases hpid'
  · rw [hself, ← hw.root_blank hroot side]
    cases side <;> rfl
  · rw [hkept hm, hself, if_neg]
    rintro ⟨h, -⟩
    rw [show ((x.heap x.rootNode).setPid pid).parentNode = none from hparent] at h
    cases h

/-! ## Attaching to the parent a node has -/

/-- Setting the parent a node already has changes nothing that can be read. -/
lemma alike_reattach (hj : Joined x) {id : String} {p c : Ref} (hc : x.node id = some c)
    (hparent : (x.heap c).parentNode = some p) :
    Alike x ((x.modify c (·.setParent (some p))).modify p (·.addDescendant id c)) := by
  have hfirst : Alike x (x.modify c (·.setParent (some p))) :=
    alike_modify x ⟨rfl, hparent.symm, rfl, rfl, fun _ => rfl, fun side => by cases side <;> rfl⟩
  refine hfirst.trans (alike_modify _ ?_)
  have hlookup := ((hfirst.heap p).descendants id).trans (hj hc hparent).2.1
  refine ⟨rfl, rfl, rfl, rfl, fun key => ?_, fun side => by cases side <;> rfl⟩
  refine (lookup_insert_ite _ _ _ _).trans ?_
  split_ifs with hkey
  · rw [hkey, hlookup]
  · rfl

lemma Watched.congr_links (hw : Watched x) (h : Alike x y)
    (hlinked : ∀ m side, (y.heap m).linked side = (x.heap m).linked side) : Watched y where
  back {id r} hr {side key} hkey := by
    rw [h.node] at hr
    rw [hlinked] at hkey
    obtain ⟨m, hm, hback⟩ := hw.back hr hkey
    exact ⟨m, (h.node key).trans hm, (hlinked m side.opposite).symm ▸ hback⟩
  root_blank hroot side := by
    rw [h.rootNode, (h.heap _).pid] at hroot
    rw [h.rootNode, hlinked]
    exact hw.root_blank hroot side

/-! ## No longer watching -/

lemma linkOf_unlinkAt (x : Tree) (side : Side) (id key : String) {m : Ref} {other : Side}
    {key' : String} {w : PID} (h : ((x.unlinkAt side id key).heap m).linkOf other key' = some w) :
    (x.heap m).linkOf other key' = some w := by
  unfold unlinkAt at h
  cases hr : x.node id with
  | none =>
    rw [hr] at h
    exact h
  | some r =>
    rw [hr, Option.elim_some, heap_modify] at h
    split_ifs at h with hm
    · rw [linkOf_unlink] at h
      split_ifs at h
      exact h
    · exact h

lemma unlinkAt_spec (x : Tree) (side : Side) (id key : String) :
    Alike x (x.unlinkAt side id key) ∧ ∀ m other key',
      key' ∈ ((x.unlinkAt side id key).heap m).linked other ↔
        key' ∈ (x.heap m).linked other ∧ ¬(x.node id = some m ∧ other = side ∧ key' = key) := by
  unfold unlinkAt
  cases hr : x.node id with
  | none =>
    refine ⟨⟨fun _ => .refl _, rfl, rfl, rfl, rfl, rfl⟩, fun m other key' => ?_⟩
    simp
  | some r =>
    rw [Option.elim_some]
    refine ⟨alike_modify x ((x.heap r).alike_unlink side key), fun m other key' => ?_⟩
    rw [heap_modify]
    split_ifs with hm
    · subst hm
      rw [mem_linked_unlink]
      simp
    · have hne : r ≠ m := Ne.symm hm
      simp [hne]

lemma Watched.removeWatcher (hx : Shape x) (hw : Watched x) (watchee watcher : PID) :
    Alike x (x.removeWatcher (some watchee) (some watcher)) ∧
      Watched (x.removeWatcher (some watchee) (some watcher)) := by
  change Alike x (Tree.unlinkAt _ _ _ _) ∧ Watched (Tree.unlinkAt _ _ _ _)
  obtain ⟨hxy, hmem⟩ := unlinkAt_spec x .watchees watcher.id watchee.id
  generalize x.unlinkAt .watchees watcher.id watchee.id = y at hxy hmem
  obtain ⟨hyz, hmem'⟩ := unlinkAt_spec y .watchers watchee.id watcher.id
  generalize y.unlinkAt .watchers watchee.id watcher.id = z at hyz hmem'
  have hxz := hxy.trans hyz
  have hlinked : ∀ m other key, key ∈ (z.heap m).linked other ↔ key ∈ (x.heap m).linked other ∧
      ¬(x.node watcher.id = some m ∧ other = .watchees ∧ key = watchee.id) ∧
      ¬(x.node watchee.id = some m ∧ other = .watchers ∧ key = watcher.id) := by
    intro m other key
    rw [hmem', hmem, hxy.node, and_assoc]
  refine ⟨hxz, fun {id r} hr {side key} hkey => ?_, fun hroot side => ?_⟩
  · rw [hxz.node] at hr
    rw [hlinked] at hkey
    obtain ⟨hkey, hnot, hnot'⟩ := hkey
    obtain ⟨m, hm, hback⟩ := hw.back hr hkey
    refine ⟨m, (hxz.node key).trans hm, (hlinked m _ _).mpr ⟨hback, ?_, ?_⟩⟩
    -- each half is dropped together with the other
    · rintro ⟨hm', hside, rfl⟩
      obtain rfl : side = .watchers := by cases side <;> [rfl; cases hside]
      exact hnot' ⟨hr, rfl, hx.node_inj hm hm'⟩
    · rintro ⟨hm', hside, rfl⟩
      obtain rfl : side = .watchees := by cases side <;> [cases hside; rfl]
      exact hnot ⟨hr, rfl, hx.node_inj hm hm'⟩
  · rw [hxz.rootNode, (hxz.heap _).pid] at hroot
    refine List.eq_nil_iff_forall_not_mem.mpr fun key hkey => ?_
    rw [hxz.rootNode, hlinked, hw.root_blank hroot] at hkey
    cases hkey.1

end Tree
end GoAkt.Actor
