import GoAkt.ActorTreeInvariant

/-!
# Deleting a subtree

`deleteNode` lists a subtree by a stack walk and removes the listed nodes from the last
to the first, so that each node is a leaf when its turn comes. Removing a leaf keeps the
shape of the tree and the watch relation; only the index of names may lose an entry that
another node of the same name still needs.
-/
namespace GoAkt.Actor
open GoAkt.FiniteMaps GoAkt.Forests List
namespace Tree
variable {x y : Tree} {r : Ref}

/-! ## One turn of the loop -/

/-- Two trees that differ in what the watch maps hold, and at `r` also in which of them
are `nil`. -/
structure AlikeBut (r : Ref) (x y : Tree) : Prop where
  pid : ∀ m, (y.heap m).pid = (x.heap m).pid
  parentNode : ∀ m, (y.heap m).parentNode = (x.heap m).parentNode
  id : ∀ m, (y.heap m).id = (x.heap m).id
  name : ∀ m, (y.heap m).name = (x.heap m).name
  descendants : ∀ m key, (y.heap m).descendants.lookup key = (x.heap m).descendants.lookup key
  maps : ∀ m, m ≠ r → ∀ side, ((y.heap m).links side).isSome = ((x.heap m).links side).isSome
  next : y.next = x.next
  rootNode : y.rootNode = x.rootNode
  pids : y.pids = x.pids
  names : y.names = x.names
  counter : y.counter = x.counter

lemma AlikeBut.trans {z : Tree} (h : AlikeBut r x y) (h' : AlikeBut r y z) : AlikeBut r x z where
  pid m := (h'.pid m).trans (h.pid m)
  parentNode m := (h'.parentNode m).trans (h.parentNode m)
  id m := (h'.id m).trans (h.id m)
  name m := (h'.name m).trans (h.name m)
  descendants m key := (h'.descendants m key).trans (h.descendants m key)
  maps m hm side := (h'.maps m hm side).trans (h.maps m hm side)
  next := h'.next.trans h.next
  rootNode := h'.rootNode.trans h.rootNode
  pids := h'.pids.trans h.pids
  names := h'.names.trans h.names
  counter := h'.counter.trans h.counter

lemma Alike.but (h : Alike x y) (r : Ref) : AlikeBut r x y where
  pid m := (h.heap m).pid
  parentNode m := (h.heap m).parentNode
  id m := (h.heap m).id
  name m := (h.heap m).name
  descendants m := (h.heap m).descendants
  maps m _ := (h.heap m).maps
  next := h.next
  rootNode := h.rootNode
  pids := h.pids
  names := h.names
  counter := h.counter

lemma AlikeBut.node (h : AlikeBut r x y) (id : String) : y.node id = x.node id := by
  unfold Tree.node
  rw [h.pids]

lemma alikeBut_setLinks (x : Tree) (r : Ref) (m : Option (Map String PID)) (side : Side) :
    AlikeBut r x (x.modify r (·.setLinks m side)) := by
  have hheap := fun k => heap_modify x r k (·.setLinks m side)
  constructor
  case maps =>
    intro k hk other
    rw [hheap, if_neg hk]
  all_goals first | rfl | intro k; rw [hheap]; split_ifs <;> cases side <;> intros <;> rfl

lemma unlinkAt_foldl_spec (x : Tree) (side : Side) (id : String) (keys : List String) :
    Alike x (keys.foldl (fun x key => x.unlinkAt side key id) x) ∧ ∀ m other key,
      key ∈ ((keys.foldl (fun x key => x.unlinkAt side key id) x).heap m).linked other ↔
        key ∈ (x.heap m).linked other ∧
          ¬(other = side ∧ key = id ∧ ∃ k ∈ keys, x.node k = some m) := by
  induction keys generalizing x with
  | nil => exact ⟨⟨fun _ => .refl _, rfl, rfl, rfl, rfl, rfl⟩, by simp⟩
  | cons k keys ih =>
    obtain ⟨hfirst, hmem⟩ := unlinkAt_spec x side k id
    obtain ⟨hrest, hmem'⟩ := ih (x.unlinkAt side k id)
    refine ⟨hfirst.trans hrest, fun m other key => ?_⟩
    rw [foldl_cons, hmem', hmem]
    simp only [hfirst.node, mem_cons, exists_eq_or_imp, and_assoc, ← not_or]
    refine and_congr_right fun _ => not_congr ⟨?_, ?_⟩
    · rintro (⟨hk, hside, hid⟩ | ⟨hside, hid, hk⟩)
      · exact ⟨hside, hid, .inl hk⟩
      · exact ⟨hside, hid, .inr hk⟩
    · rintro ⟨hside, hid, hk | hk⟩
      · exact .inl ⟨hk, hside, hid⟩
      · exact .inr ⟨hside, hid, hk⟩

lemma unlinkAll_spec (x : Tree) (r : Ref) (side : Side) :
    AlikeBut r x (x.unlinkAll r side) ∧
    (∀ other, ((x.unlinkAll r side).heap r).links other = none ↔
      other = side ∨ (x.heap r).links other = none) ∧
    ∀ m other key, key ∈ ((x.unlinkAll r side).heap m).linked other ↔
      key ∈ (x.heap m).linked other ∧ ¬(m = r ∧ other = side) ∧
        ¬(other = side.opposite ∧ key = (x.heap r).id ∧
          ∃ k ∈ (x.heap r).linked side, x.node k = some m) := by
  unfold unlinkAll
  dsimp only
  obtain ⟨hfold, hmem⟩ := unlinkAt_foldl_spec x side.opposite (x.heap r).id ((x.heap r).linked side)
  generalize ((x.heap r).linked side).foldl _ x = z at hfold hmem
  refine ⟨(hfold.but r).trans (alikeBut_setLinks z r none side), fun other => ?_,
    fun m other key => ?_⟩
  · rw [heap_modify, if_pos rfl, PidNode.links_setLinks]
    have hmaps := (hfold.heap r).maps other
    split_ifs with hside
    · simp [hside]
    · simp only [hside, false_or]
      rw [← Option.isNone_iff_eq_none, ← Option.isNone_iff_eq_none, ← Option.not_isSome,
        ← Option.not_isSome, hmaps]
  · rw [heap_modify]
    split_ifs with hm
    · subst hm
      rw [PidNode.mem_linked_setLinks_none, hmem]
      tauto
    · rw [hmem]
      simp [hm]

lemma linkOf_unlinkAt_foldl (x : Tree) (side : Side) (id : String) (keys : List String) {m : Ref}
    {other : Side} {key : String} {w : PID}
    (h : ((keys.foldl (fun x key => x.unlinkAt side key id) x).heap m).linkOf other key = some w) :
    (x.heap m).linkOf other key = some w := by
  induction keys generalizing x with
  | nil => exact h
  | cons k keys ih => exact linkOf_unlinkAt x side k id (ih _ h)

lemma linkOf_unlinkAll (x : Tree) (r : Ref) (side : Side) {m : Ref} {other : Side} {key : String}
    {w : PID} (h : ((x.unlinkAll r side).heap m).linkOf other key = some w) :
    (x.heap m).linkOf other key = some w := by
  unfold unlinkAll at h
  dsimp only at h
  rw [heap_modify] at h
  split_ifs at h with hm
  · rw [PidNode.linkOf_setLinks_none] at h
    split_ifs at h
    exact linkOf_unlinkAt_foldl x _ _ _ h
  · exact linkOf_unlinkAt_foldl x _ _ _ h

/-- An entry is dropped where it refers to the removed node. -/
lemma lookup_release (names : Map String Ref) (held : String) (r : Ref) (name : String) :
    (if names.lookup held = some r then names.erase held else names).lookup name =
      if name = held ∧ names.lookup name = some r then none else names.lookup name := by
  by_cases hname : name = held
  · subst hname
    by_cases hheld : names.lookup name = some r
    · simp [hheld]
    · simp [hheld]
  · rw [if_neg fun h : name = held ∧ _ => hname h.1]
    split_ifs
    · rw [lookup_erase_ite, if_neg hname]
    · rfl

/-- What is left once the registered node `r` is removed. -/
structure Removed (x : Tree) (r : Ref) (y : Tree) : Prop where
  next : y.next = x.next
  rootNode : y.rootNode = x.rootNode
  counter : y.counter = x.counter - 1
  pids : y.pids = x.pids.erase (x.heap r).id
  names : ∀ name, y.names.lookup name =
    if name = (x.heap r).name ∧ x.names.lookup name = some r then none else x.names.lookup name
  pid : ∀ {m}, m ≠ r → (y.heap m).pid = (x.heap m).pid
  id : ∀ {m}, m ≠ r → (y.heap m).id = (x.heap m).id
  name : ∀ {m}, m ≠ r → (y.heap m).name = (x.heap m).name
  parentNode : ∀ {m}, m ≠ r → (y.heap m).parentNode = (x.heap m).parentNode
  maps : ∀ {m}, m ≠ r → ∀ side, ((y.heap m).links side).isSome = ((x.heap m).links side).isSome
  descendants : ∀ {m}, m ≠ r → ∀ key, (y.heap m).descendants.lookup key =
    if (x.heap r).parentNode = some m ∧ key = (x.heap r).id then none
    else (x.heap m).descendants.lookup key
  linked_sub : ∀ {m}, m ≠ r → ∀ {side key}, key ∈ (y.heap m).linked side →
    key ∈ (x.heap m).linked side
  linked : ∀ {m}, m ≠ r → ∀ {side key}, key ≠ (x.heap r).id → key ∈ (x.heap m).linked side →
    key ∈ (y.heap m).linked side
  unlinked : ∀ {m}, m ≠ r → ∀ {side k}, x.node k = some m →
    k ∈ (x.heap r).linked side.opposite → (x.heap r).id ∉ (y.heap m).linked side
  values : ∀ {m}, m ≠ r → ∀ {side key w}, (y.heap m).linkOf side key = some w →
    (x.heap m).linkOf side key = some w
  cleared : (y.heap r).pid = none ∧ (y.heap r).parentNode = none ∧
    (∀ side, (y.heap r).links side = none) ∧
    ∀ key, (y.heap r).descendants.lookup key = (x.heap r).descendants.lookup key

/-- Both sides of the watch relation of a registered node, dropped at the nodes it
mentions. -/
lemma unlinkBoth_spec (hx : Shape x) {id : String} (hr : x.node id = some r) :
    ∃ z, (x.unlinkAll r .watchers).unlinkAll r .watchees = z ∧ AlikeBut r x z ∧
      (∀ side, (z.heap r).links side = none) ∧
      ∀ {m}, m ≠ r → ∀ side key, key ∈ (z.heap m).linked side ↔ key ∈ (x.heap m).linked side ∧
        ¬(key = id ∧ ∃ k ∈ (x.heap r).linked side.opposite, x.node k = some m) := by
  obtain ⟨hxy, hnil, hmem⟩ := unlinkAll_spec x r .watchers
  generalize x.unlinkAll r .watchers = y at hxy hnil hmem
  obtain ⟨hyz, hnil', hmem'⟩ := unlinkAll_spec y r .watchees
  refine ⟨_, rfl, hxy.trans hyz, fun side => ?_, fun {m} hm side key => ?_⟩
  · cases side with
    | watchers => exact (hnil' _).mpr (.inr ((hnil _).mpr (.inl rfl)))
    | watchees => exact (hnil' _).mpr (.inl rfl)
  · have hid : (x.heap r).id = id := (hx.known hr).2.1
    -- a mentioned node other than `r` itself is still mentioned after the first loop
    have hstill : (∃ k ∈ (y.heap r).linked .watchees, x.node k = some m) ↔
        ∃ k ∈ (x.heap r).linked .watchees, x.node k = some m := by
      refine exists_congr fun k => ⟨fun ⟨hk, hkm⟩ => ⟨((hmem _ _ _).mp hk).1, hkm⟩, ?_⟩
      rintro ⟨hk, hkm⟩
      refine ⟨(hmem _ _ _).mpr ⟨hk, nofun, ?_⟩, hkm⟩
      rintro ⟨-, rfl, -⟩
      rw [hid, hr] at hkm
      exact hm (Option.some.inj hkm).symm
    rw [hmem', hmem, hxy.id, hid]
    simp only [hxy.node, hstill]
    cases side <;> simp [Side.opposite, hm]

lemma removed_removeNode (hx : Shape x) {id : String} (hr : x.node id = some r) :
    Removed x r (x.removeNode r) := by
  have hself := hx.parent_ne hr
  obtain ⟨-, hid, pid, hpid, -⟩ := hx.known hr
  obtain ⟨z, hz, halike, hnil, hlinked⟩ := unlinkBoth_spec hx hr
  have hremove : x.removeNode r = ((z.unlinkParent r).unregister r).modify r (·.clearPid) := by
    unfold removeNode
    rw [if_neg (by rw [hpid]; exact nofun), hz]
  -- the parent of `r` loses its entries for `r`, the other nodes are untouched
  have hparent : ∀ m, (z.unlinkParent r).heap m = if (x.heap r).parentNode = some m
      then ((z.heap m).dropDescendant id).unlink .watchees id else z.heap m := by
    intro m
    unfold unlinkParent
    rw [halike.id, hid, halike.parentNode]
    cases hp : (x.heap r).parentNode with
    | none => simp
    | some p =>
      rw [Option.elim_some, heap_modify]
      simp only [Option.some.injEq, eq_comm]
  have hindexes : (z.unlinkParent r).pids = x.pids ∧ (z.unlinkParent r).names = x.names ∧
      (z.unlinkParent r).counter = x.counter ∧ (z.unlinkParent r).next = x.next ∧
      (z.unlinkParent r).rootNode = x.rootNode := by
    rw [← halike.pids, ← halike.names, ← halike.counter, ← halike.next, ← halike.rootNode]
    unfold unlinkParent
    cases (z.heap r).parentNode <;> exact ⟨rfl, rfl, rfl, rfl, rfl⟩
  obtain ⟨hpids, hnames, hcounter, hnext, hroot⟩ := hindexes
  have hr' : (z.unlinkParent r).heap r = z.heap r := by rw [hparent, if_neg hself]
  have hheap : ∀ {m}, m ≠ r → (x.removeNode r).heap m = (z.unlinkParent r).heap m := by
    intro m hm
    rw [hremove, heap_modify, if_neg hm]
    rfl
  have hcleared : (x.removeNode r).heap r = (z.heap r).clearPid := by
    rw [hremove, heap_modify, if_pos rfl, ← hr']
    rfl
  have hvalues : ∀ {m side key w}, (z.heap m).linkOf side key = some w →
      (x.heap m).linkOf side key = some w := by
    intro m side key w h
    rw [← hz] at h
    exact linkOf_unlinkAll x r _ (linkOf_unlinkAll _ r _ h)
  have hmem : ∀ {m}, m ≠ r → ∀ side key, key ∈ ((x.removeNode r).heap m).linked side ↔
      key ∈ (z.heap m).linked side ∧
        ¬((x.heap r).parentNode = some m ∧ side = .watchees ∧ key = id) := by
    intro m hm side key
    rw [hheap hm, hparent]
    split_ifs with hp
    · rw [PidNode.mem_linked_unlink]
      have hdrop : ((z.heap m).dropDescendant id).linked side = (z.heap m).linked side := by
        cases side <;> rfl
      rw [hdrop]
      simp [hp]
    · simp [hp]
  refine
    { next := ?_, rootNode := ?_, counter := ?_, pids := ?_, names := fun name => ?_
      pid := fun {m} hm => ?_, id := fun {m} hm => ?_, name := fun {m} hm => ?_
      parentNode := fun {m} hm => ?_, maps := fun {m} hm side => ?_
      descendants := fun {m} hm key => ?_
      linked_sub := fun {m} hm {side key} hkey => ?_
      linked := fun {m} hm {side key} hne hkey => ?_
      unlinked := fun {m} hm {side k} hk hmentioned hkey => ?_
      values := fun {m} hm {side key w} h => ?_
      cleared := ?_ }
  · rw [hremove]
    exact hnext
  · rw [hremove]
    exact hroot
  · rw [hremove, ← hcounter]
    rfl
  · rw [hremove, ← halike.id r, ← hr', ← hpids]
    rfl
  · rw [hremove, ← halike.name r, ← hr', ← hnames]
    exact lookup_release (z.unlinkParent r).names _ r name
  · rw [hheap hm, hparent, ← halike.pid]
    split_ifs <;> rfl
  · rw [hheap hm, hparent, ← halike.id]
    split_ifs <;> rfl
  · rw [hheap hm, hparent, ← halike.name]
    split_ifs <;> rfl
  · rw [hheap hm, hparent, ← halike.parentNode m]
    split_ifs <;> rfl
  · rw [hheap hm, hparent, ← halike.maps m hm]
    split_ifs
    · rw [PidNode.isSome_links_unlink]
      cases side <;> rfl
    · rfl
  · rw [hheap hm, hparent, hid]
    by_cases hp : (x.heap r).parentNode = some m
    · rw [if_pos hp]
      refine (lookup_erase_ite (z.heap m).descendants id key).trans ?_
      rw [halike.descendants]
      simp [hp]
    · rw [if_neg hp, if_neg fun h => hp h.1]
      exact halike.descendants m key
  · exact ((hlinked hm _ _).mp ((hmem hm _ _).mp hkey).1).1
  · rw [hid] at hne
    exact (hmem hm _ _).mpr ⟨(hlinked hm _ _).mpr ⟨hkey, fun h => hne h.1⟩, fun h => hne h.2.2⟩
  · rw [hid] at hkey
    exact ((hlinked hm _ _).mp ((hmem hm _ _).mp hkey).1).2 ⟨rfl, k, hmentioned, hk⟩
  · rw [hheap hm, hparent] at h
    split_ifs at h
    · rw [PidNode.linkOf_unlink] at h
      split_ifs at h
      have hsame : ((z.heap m).dropDescendant id).linkOf side key = (z.heap m).linkOf side key := by
        cases side <;> rfl
      exact hvalues (hsame ▸ h)
    · exact hvalues h
  · rw [hcleared]
    refine ⟨rfl, rfl, fun side => ?_, fun key => halike.descendants r key⟩
    rw [← hnil side]
    cases side <;> rfl

namespace Removed
variable {id : String}

lemma node_eq (hx : Shape x) (hr : x.node id = some r) (h : Removed x r y) (key : String) :
    y.node key = if key = id then none else x.node key := by
  unfold Tree.node
  rw [h.pids, (hx.known hr).2.1]
  exact lookup_erase_ite x.pids id key

variable {key : String} {m : Ref}

section
variable (hx : Shape x)
include hx

/-- A node registered after the removal was registered before it under another ID. -/
lemma node_cases (hr : x.node id = some r) (h : Removed x r y)
    (hm : y.node key = some m) : x.node key = some m ∧ key ≠ id ∧ m ≠ r := by
  rw [h.node_eq hx hr] at hm
  split_ifs at hm with hkey
  refine ⟨hm, hkey, ?_⟩
  rintro rfl
  exact hkey (hx.node_inj hm hr)

lemma node_of_node (hr : x.node id = some r) (h : Removed x r y)
    (hm : x.node key = some m) (hne : m ≠ r) : y.node key = some m := by
  rw [h.node_eq hx hr, if_neg]
  · exact hm
  · rintro rfl
    exact hne (Option.some.inj (hm.symm.trans hr))

lemma names_eq (h : Removed x r y) {name : String} :
    y.names.lookup name = some m ↔ x.names.lookup name = some m ∧ m ≠ r := by
  rw [h.names]
  split_ifs with hname
  · rw [hname.2]
    exact ⟨nofun, fun ⟨hm, hne⟩ => absurd (Option.some.inj hm).symm hne⟩
  · refine ⟨fun hm => ⟨hm, ?_⟩, And.left⟩
    rintro rfl
    exact hname ⟨(hx.name hm).2.symm, hm⟩

lemma listed (hr : x.node id = some r) (h : Removed x r y) {c p : Ref}
    (hc : y.Listed c p) : x.Listed c p := by
  obtain ⟨pid, key, hp, hc⟩ := hc
  obtain ⟨hp, -, hne⟩ := h.node_cases hx hr hp
  rw [h.descendants hne] at hc
  split_ifs at hc
  exact ⟨pid, key, hp, hc⟩

lemma shape (hr : x.node id = some r)
    (hleaf : ∀ key, (x.heap r).descendants.lookup key = none) (h : Removed x r y) : Shape y where
  root_lt := by
    rw [h.rootNode, h.next]
    exact hx.root_lt
  known {key m} hm := by
    obtain ⟨hm, -, hne⟩ := h.node_cases hx hr hm
    rw [h.next, h.id hne, h.pid hne, h.name hne]
    exact hx.known hm
  listed {pid p} hp {key m} hm := by
    obtain ⟨hp, -, hne⟩ := h.node_cases hx hr hp
    rw [h.descendants hne, (hx.known hr).2.1] at hm
    split_ifs at hm with hcase
    obtain ⟨hm, hparent⟩ := hx.listed hp hm
    have hmr : m ≠ r := by
      rintro rfl
      exact hcase ⟨hparent, hx.node_inj hm hr⟩
    exact ⟨h.node_of_node hx hr hm hmr, (h.parentNode hmr).trans hparent⟩
  acyclic m hm := hx.acyclic m (Relation.TransGen.mono (fun _ _ => h.listed hx hr) m m hm)
  parent_ne {key m} hm := by
    obtain ⟨hm, -, hne⟩ := h.node_cases hx hr hm
    rw [h.parentNode hne]
    exact hx.parent_ne hm
  rootless {key m} hm := by
    obtain ⟨hm, -, hne⟩ := h.node_cases hx hr hm
    rw [h.parentNode hne, h.rootNode]
    exact hx.rootless hm
  maps {key m} hm hroot side := by
    obtain ⟨hm, -, hne⟩ := h.node_cases hx hr hm
    rw [h.rootNode] at hroot
    rw [h.maps hne]
    exact hx.maps hm hroot side
  name {name m} hname := by
    obtain ⟨hname, hne⟩ := (h.names_eq hx).mp hname
    obtain ⟨hm, hn⟩ := hx.name hname
    rw [h.id hne, h.name hne]
    exact ⟨h.node_of_node hx hr hm hne, hn⟩
  count := by
    have hmem : id ∈ x.pids.keys := (mem_keys_iff_lookup x.pids id).mpr ⟨r, hr⟩
    have hpos : 0 < x.pids.keys.length := length_pos_of_mem hmem
    rw [h.counter, h.pids, (hx.known hr).2.1, hx.count, AList.keys_erase, length_erase_of_mem hmem]
    omega
  root_known hroot := by
    rw [h.rootNode] at hroot ⊢
    have hne : x.rootNode ≠ r := by
      rintro rfl
      rw [h.cleared.1] at hroot
      cases hroot
    rw [h.pid hne] at hroot
    rw [h.id hne]
    exact h.node_of_node hx hr (hx.root_known hroot) hne
  root_blank hroot := by
    rw [h.rootNode] at hroot ⊢
    by_cases hne : x.rootNode = r
    · -- the root itself was the leaf
      obtain ⟨-, hparent, -, hdescendants⟩ := h.cleared
      rw [hne]
      refine ⟨hparent, fun key => ?_⟩
      rw [hdescendants]
      exact hleaf key
    · rw [h.pid hne] at hroot
      obtain ⟨hparent, hnone⟩ := hx.root_blank hroot
      refine ⟨(h.parentNode hne).trans hparent, fun key => ?_⟩
      rw [h.descendants hne, hnone, ite_self]

lemma watched (hw : Watched x) (hr : x.node id = some r) (h : Removed x r y) : Watched y where
  back {key m} hm {side other} hother := by
    obtain ⟨hm, hkey, hne⟩ := h.node_cases hx hr hm
    obtain ⟨m', hm', hback⟩ := hw.back hm (h.linked_sub hne hother)
    have hmr : m' ≠ r := by
      rintro rfl
      rw [← hx.node_inj hr hm', ← (hx.known hr).2.1] at hother
      exact h.unlinked hne hm hback hother
    refine ⟨m', h.node_of_node hx hr hm' hmr, h.linked hmr ?_ hback⟩
    rw [(hx.known hr).2.1]
    exact hkey
  root_blank hroot side := by
    rw [h.rootNode] at hroot ⊢
    by_cases hne : x.rootNode = r
    · rw [hne]
      unfold PidNode.linked
      rw [h.cleared.2.2.1]
      rfl
    · rw [h.pid hne] at hroot
      refine eq_nil_iff_forall_not_mem.mpr fun key hkey => ?_
      have hsub := h.linked_sub hne hkey
      rw [hw.root_blank hroot] at hsub
      cases hsub

/-- A node that stays lists what it listed, apart from the removed node. -/
lemma lookup_iff (hr : x.node id = some r) (h : Removed x r y) {pid : String}
    {p : Ref} (hp : x.node pid = some p) (hne : p ≠ r) {c : Ref} :
    (y.heap p).descendants.lookup key = some c ↔
      (x.heap p).descendants.lookup key = some c ∧ c ≠ r := by
  rw [h.descendants hne, (hx.known hr).2.1]
  split_ifs with hcase
  · obtain ⟨-, rfl⟩ := hcase
    refine ⟨nofun, fun ⟨hc, hcr⟩ => ?_⟩
    exact absurd (Option.some.inj ((hx.listed hp hc).1.symm.trans hr)) hcr
  · refine ⟨fun hc => ⟨hc, ?_⟩, And.left⟩
    rintro rfl
    obtain ⟨hnode, hparent⟩ := hx.listed hp hc
    exact hcase ⟨hparent, hx.node_inj hnode hr⟩

lemma joined (hj : Joined x) (hr : x.node id = some r)
    (hleaf : ∀ key, (x.heap r).descendants.lookup key = none) (h : Removed x r y) : Joined y := by
  intro key m p hm hp
  obtain ⟨hm, hkey, hne⟩ := h.node_cases hx hr hm
  rw [h.parentNode hne] at hp
  obtain ⟨hknown, hlisted, hmap⟩ := hj hm hp
  have hpr : p ≠ r := by
    rintro rfl
    rw [hleaf] at hlisted
    cases hlisted
  rw [h.id hpr, h.maps hpr, h.descendants hpr, (hx.known hr).2.1, if_neg fun hcase => hkey hcase.2]
  exact ⟨h.node_of_node hx hr hknown hpr, hlisted, hmap⟩

end
end Removed

/-! ## The whole subtree -/

/-- What is left once the nodes of a list are removed. -/
structure Deleted (x : Tree) (gone : List Ref) (y : Tree) : Prop where
  shape : Shape y
  watched : Watched y
  joined : Joined x → Joined y
  rootNode : y.rootNode = x.rootNode
  node : ∀ {id m}, y.node id = some m ↔ x.node id = some m ∧ m ∉ gone
  names : ∀ {name m}, y.names.lookup name = some m ↔ x.names.lookup name = some m ∧ m ∉ gone
  pid : ∀ {m}, m ∉ gone → (y.heap m).pid = (x.heap m).pid
  id : ∀ {m}, m ∉ gone → (y.heap m).id = (x.heap m).id
  name : ∀ {m}, m ∉ gone → (y.heap m).name = (x.heap m).name
  parentNode : ∀ {m}, m ∉ gone → (y.heap m).parentNode = (x.heap m).parentNode
  maps : ∀ {m}, m ∉ gone → ∀ side,
    ((y.heap m).links side).isSome = ((x.heap m).links side).isSome
  linked : ∀ {m}, m ∉ gone → ∀ {side key}, (y.node key).isSome →
    (key ∈ (y.heap m).linked side ↔ key ∈ (x.heap m).linked side)
  values : ∀ {m}, m ∉ gone → ∀ {side key w}, (y.heap m).linkOf side key = some w →
    (x.heap m).linkOf side key = some w
  lookup : ∀ {id m}, x.node id = some m → m ∉ gone → ∀ {key c},
    (y.heap m).descendants.lookup key = some c ↔
      (x.heap m).descendants.lookup key = some c ∧ c ∉ gone

/-- Removing, from the last to the first, nodes of which none is listed by a later one and
which list only each other. -/
lemma deleted_foldl (hx : Shape x) (hw : Watched x) (post : List Ref) (hnodup : post.Nodup)
    (hknown : ∀ m ∈ post, ∃ id, x.node id = some m)
    (hdown : post.Pairwise fun a b => ¬x.Listed a b)
    (hclosed : ∀ c p, x.Listed c p → p ∈ post → c ∈ post) :
    Deleted x post (post.reverse.foldl removeNode x) := by
  induction post using List.reverseRecOn generalizing x with
  | nil =>
    exact ⟨hx, hw, fun h => h, rfl, by simp, by simp, fun _ => rfl, fun _ => rfl, fun _ => rfl,
      fun _ => rfl, fun _ _ => rfl, fun _ _ _ _ => Iff.rfl, fun _ _ _ _ h => h, by simp⟩
  | append_singleton init r ih =>
    obtain ⟨id, hr⟩ := hknown r (by simp)
    obtain ⟨hinit, -, hdisjoint⟩ := nodup_append'.mp hnodup
    obtain ⟨hdown', -, hlast⟩ := pairwise_append.mp hdown
    have hout : ∀ {m}, m ∈ init → m ≠ r := by
      rintro m hm rfl
      exact hdisjoint hm mem_cons_self
    have hleaf : ∀ key, (x.heap r).descendants.lookup key = none := by
      intro key
      refine Option.eq_none_iff_forall_not_mem.mpr fun m hm => ?_
      have hlisted : x.Listed m r := ⟨id, key, hr, hm⟩
      rcases mem_append.mp (hclosed m r hlisted (by simp)) with hin | hin
      · exact hlast m hin r mem_cons_self hlisted
      · obtain rfl : m = r := by simpa using hin
        exact hx.acyclic m (.single hlisted)
    have hremoved := removed_removeNode hx hr
    rw [reverse_append, reverse_singleton, singleton_append, foldl_cons]
    generalize x.removeNode r = y at hremoved
    have hshape := hremoved.shape hx hr hleaf
    have hrest := ih hshape (hremoved.watched hx hw hr) hinit (fun m hm => by
        obtain ⟨key, hkey⟩ := hknown m (mem_append_left _ hm)
        exact ⟨key, hremoved.node_of_node hx hr hkey (hout hm)⟩)
      (hdown'.imp fun hab hlisted => hab (hremoved.listed hx hr hlisted))
      (fun c p hlisted hp => by
        have hin := hclosed c p (hremoved.listed hx hr hlisted) (mem_append_left _ hp)
        have hne : c ≠ r := by
          rintro rfl
          obtain ⟨pid, key, hp', hc⟩ := hlisted
          exact (hremoved.node_cases hx hr (hshape.listed hp' hc).1).2.2 rfl
        simpa [hne] using hin)
    generalize init.reverse.foldl removeNode y = z at hrest
    have hmem : ∀ m, m ∉ init ++ [r] ↔ m ∉ init ∧ m ≠ r := by simp
    refine
      { shape := hrest.shape
        watched := hrest.watched
        joined := fun hj => hrest.joined (hremoved.joined hx hj hr hleaf)
        rootNode := hrest.rootNode.trans hremoved.rootNode
        maps := fun {m} hm side => (hrest.maps ((hmem m).mp hm).1 side).trans
          (hremoved.maps ((hmem m).mp hm).2 side)
        node := fun {key m} => ?_
        names := fun {name m} => ?_
        pid := fun {m} hm => ?_
        id := fun {m} hm => ?_
        name := fun {m} hm => ?_
        parentNode := fun {m} hm => ?_
        linked := fun {m} hm {side key} hkey => ?_
        values := fun {m} hm {side key w} h => ?_
        lookup := fun {key m} hm hout' {k c} => ?_ }
    · rw [hrest.node, hmem]
      constructor
      · rintro ⟨hm, hin⟩
        obtain ⟨hm, -, hne⟩ := hremoved.node_cases hx hr hm
        exact ⟨hm, hin, hne⟩
      · rintro ⟨hm, hin, hne⟩
        exact ⟨hremoved.node_of_node hx hr hm hne, hin⟩
    · rw [hrest.names, hremoved.names_eq hx, hmem, and_assoc, and_comm (a := m ≠ r)]
    · obtain ⟨hin, hne⟩ := (hmem m).mp hm
      rw [hrest.pid hin, hremoved.pid hne]
    · obtain ⟨hin, hne⟩ := (hmem m).mp hm
      rw [hrest.id hin, hremoved.id hne]
    · obtain ⟨hin, hne⟩ := (hmem m).mp hm
      rw [hrest.name hin, hremoved.name hne]
    · obtain ⟨hin, hne⟩ := (hmem m).mp hm
      rw [hrest.parentNode hin, hremoved.parentNode hne]
    · obtain ⟨hin, hne⟩ := (hmem m).mp hm
      rw [hrest.linked hin hkey]
      refine ⟨hremoved.linked_sub hne, hremoved.linked hne ?_⟩
      obtain ⟨m', hm'⟩ := Option.isSome_iff_exists.mp hkey
      rw [(hx.known hr).2.1]
      exact (hremoved.node_cases hx hr (hrest.node.mp hm').1).2.1
    · obtain ⟨hin, hne⟩ := (hmem m).mp hm
      exact hremoved.values hne (hrest.values hin h)
    · obtain ⟨hin, hne⟩ := (hmem m).mp hout'
      rw [hrest.lookup (hremoved.node_of_node hx hr hm hne) hin,
        hremoved.lookup_iff hx hr hm hne, hmem, and_assoc, and_comm (a := c ≠ r)]

/-- The registered nodes form a forest, whatever order `range` takes. -/
lemma Shape.isForest (hx : Shape x) (ranging : Ranging) :
    IsForest (fun r => ∃ id, x.node id = some r) x.Listed (x.kids ranging) where
  nodup_kids := by
    rintro r ⟨pid, hr⟩
    refine (ranging.perm _).nodup_iff.mpr ?_
    refine List.Nodup.map_on ?_ (x.heap r).descendants.nodupKeys.nodup
    rintro ⟨k, m⟩ hk ⟨k', m'⟩ hk' (rfl : m = m')
    have h := (hx.listed hr ((mem_entries_iff_lookup _ _ _).mp hk)).1
    have h' := (hx.listed hr ((mem_entries_iff_lookup _ _ _).mp hk')).1
    rw [hx.node_inj h h']
  mem_kids := by
    rintro r c ⟨pid, hr⟩
    unfold kids
    rw [(ranging.perm _).mem_iff, mem_map]
    constructor
    · rintro ⟨⟨k, m⟩, hk, rfl⟩
      exact ⟨pid, k, hr, (mem_entries_iff_lookup _ _ _).mp hk⟩
    · rintro ⟨pid', k, -, hc⟩
      exact ⟨⟨k, c⟩, (mem_entries_iff_lookup _ _ _).mpr hc, rfl⟩
  known_of_up := by
    rintro c r ⟨pid, id, hr, hc⟩
    exact ⟨id, (hx.listed hr hc).1⟩
  unique := by
    rintro c r r' ⟨pid, id, hr, hc⟩ ⟨pid', id', hr', hc'⟩
    exact Option.some.inj ((hx.listed hr hc).2.symm.trans (hx.listed hr' hc').2)
  acyclic := hx.acyclic

/-- The traversal ends, and what it finds is removed. -/
lemma Shape.deleted_subtree (hx : Shape x) (hw : Watched x) (ranging : Ranging) {id : String}
    {start : Ref} (hstart : x.node id = some start) :
    ∃ post, x.subtree ranging start = some post ∧ (∀ r, r ∈ post ↔ Below x.Listed start r) ∧
      Deleted x post (post.reverse.foldl removeNode x) := by
  have hbound : ∀ l : List Ref, l.Nodup → (∀ r ∈ l, ∃ key, x.node key = some r) →
      l.length ≤ x.next := by
    intro l hl hknown
    have hsub : l ⊆ List.range x.next := by
      intro r hr
      obtain ⟨key, hkey⟩ := hknown r hr
      exact mem_range.mpr (hx.known hkey).1
    have hle := (hl.subperm hsub).length_le
    rwa [length_range] at hle
  obtain ⟨post, hpost, hnodup, hmem, hknown, hdown⟩ :=
    walk_subtree (hx.isForest ranging) hbound Nat.lt_two_pow_self ⟨id, hstart⟩
  refine ⟨post, hpost, hmem, deleted_foldl hx hw post hnodup hknown hdown fun c p hlisted hp => ?_⟩
  exact (hmem c).mpr (((hmem p).mp hp).child hlisted)

end Tree
end GoAkt.Actor
