import GoAkt.ActorTreeDeletion

/-!
# The tree as its callers see it

Outside the tree an actor is its PID. What callers can tell apart is which PIDs the tree
holds, which PID watches which, and which PID lists which as its child. The queries
return these relations, and each call that unlinks or deletes is described here by what
is left of them.
-/
namespace GoAkt.Actor
open PidNode GoAkt.FiniteMaps GoAkt.Forests Option

lemma PidNode.mem_entries_iff {n : PidNode} {side : Side} {m : Map String PID}
    (hm : n.links side = some m) (key : String) (w : PID) :
    (⟨key, w⟩ : Sigma fun _ : String => PID) ∈ m.entries ↔ n.linkOf side key = some w := by
  unfold linkOf
  rw [hm, bind_some]
  exact mem_entries_iff_lookup m key w

namespace Tree
variable {x y : Tree}

def Holds (x : Tree) (p : PID) : Prop := ∃ r, x.node p.id = some r ∧ (x.heap r).pid = some p

def Watches (x : Tree) (w p : PID) : Prop :=
  ∃ r, x.node p.id = some r ∧ (x.heap r).pid = some p ∧ (x.heap r).linkOf .watchers w.id = some w

def Lists (x : Tree) (p c : PID) : Prop :=
  ∃ r m, x.node p.id = some r ∧ (x.heap r).pid = some p ∧
    (x.heap r).descendants.lookup c.id = some m ∧ (x.heap m).pid = some c

/-- The invariant of a tree whose watch maps hold the registered PIDs. -/
structure Intact (x : Tree) : Prop where
  shape : Shape x
  watched : Watched x
  valued : ∀ {id r}, x.node id = some r → ∀ {side key w}, (x.heap r).linkOf side key = some w →
    w.id = key ∧ x.Holds w

lemma Holds.inj {p q : PID} (hp : x.Holds p) (hq : x.Holds q) (h : p.id = q.id) : p = q := by
  obtain ⟨r, hr, hpid⟩ := hp
  obtain ⟨r', hr', hpid'⟩ := hq
  rw [h, hr'] at hr
  cases hr
  exact Option.some.inj (hpid.symm.trans hpid')

lemma Watches.right {w p : PID} (h : x.Watches w p) : x.Holds p := by
  obtain ⟨r, hr, hpid, -⟩ := h
  exact ⟨r, hr, hpid⟩

lemma Lists.left {p c : PID} (h : x.Lists p c) : x.Holds p := by
  obtain ⟨r, -, hr, hpid, -⟩ := h
  exact ⟨r, hr, hpid⟩

namespace Intact
variable (h : Intact x)
include h

/-! ## Queries -/

variable {equalFold : String → String → Bool} {p : PID}

lemma mem_related (hp : x.Holds p)
    (hsender : p.equals equalFold x.noSender = false) (side : Side) (w : PID) :
    w ∈ x.related equalFold side p ↔ ∃ r, x.node p.id = some r ∧ (x.heap r).pid = some p ∧
        (x.heap r).linkOf side w.id = some w := by
  obtain ⟨r, hr, hpid⟩ := hp
  unfold related
  rw [hsender, if_neg Bool.false_ne_true, hr, elim_some]
  have hlinks : w ∈ ((x.heap r).links side).elim [] (fun m => m.entries.map Sigma.snd) ↔
      (x.heap r).linkOf side w.id = some w := by
    cases hm : (x.heap r).links side with
    | none => simp [linkOf, hm]
    | some m =>
      rw [elim_some, List.mem_map]
      constructor
      · rintro ⟨⟨key, v⟩, hentry, rfl⟩
        have hlink := (mem_entries_iff hm key v).mp hentry
        rw [(h.valued hr hlink).1]
        exact hlink
      · intro hlink
        exact ⟨⟨w.id, w⟩, (mem_entries_iff hm w.id w).mpr hlink, rfl⟩
  rw [hlinks]
  constructor
  · intro hlink
    exact ⟨r, rfl, hpid, hlink⟩
  · rintro ⟨r', hr', -, hlink⟩
    cases hr'
    exact hlink

lemma nodup_watchers (equalFold : String → String → Bool) (p : PID) :
    (x.watchers equalFold p).Nodup := by
  unfold watchers related
  split_ifs
  · exact List.nodup_nil
  · cases hr : x.node p.id with
    | none => exact List.nodup_nil
    | some r =>
      rw [elim_some]
      cases hm : (x.heap r).links .watchers with
      | none => exact List.nodup_nil
      | some m =>
        rw [elim_some]
        refine List.Nodup.map_on ?_ m.nodupKeys.nodup
        rintro ⟨k, w⟩ hk ⟨k', w'⟩ hk' (rfl : w = w')
        have hkey := (h.valued hr ((mem_entries_iff hm k w).mp hk)).1
        have hkey' := (h.valued hr ((mem_entries_iff hm k' w).mp hk')).1
        rw [← hkey, ← hkey']

lemma mem_children (hp : x.Holds p) (hsender : p.equals equalFold x.noSender = false) (c : PID) :
    c ∈ x.children equalFold p ↔ x.Lists p c := by
  obtain ⟨r, hr, hpid⟩ := hp
  unfold children
  rw [hsender, if_neg Bool.false_ne_true, hr, elim_some, List.mem_filterMap]
  simp only [List.mem_map]
  constructor
  · rintro ⟨m, ⟨⟨key, m'⟩, hentry, rfl⟩, hc⟩
    have hlookup := (mem_entries_iff_lookup _ key m').mp hentry
    obtain ⟨c', hc', hid, -⟩ := (h.shape.known (h.shape.listed hr hlookup).1).2.2
    obtain rfl : c' = c := Option.some.inj (hc'.symm.trans hc)
    exact ⟨r, m', hr, hpid, hid.symm ▸ hlookup, hc⟩
  · rintro ⟨r', m, hr', -, hlookup, hc⟩
    rw [hr] at hr'
    cases hr'
    exact ⟨m, ⟨⟨c.id, m⟩, (mem_entries_iff_lookup _ _ _).mpr hlookup, rfl⟩, hc⟩

end Intact

/-! ## Unlinking -/

/-- What is left of the tree when relations, but no PID, are dropped. -/
structure Loosened (x : Tree) (watch list : PID → PID → Prop) (y : Tree) : Prop where
  intact : Intact y
  noSender : y.noSender = x.noSender
  holds : ∀ p, y.Holds p ↔ x.Holds p
  watches : ∀ w p, y.Watches w p ↔ x.Watches w p ∧ ¬watch w p
  lists : ∀ p c, y.Lists p c ↔ x.Lists p c ∧ ¬list p c

lemma Alike.holds_iff (h : Alike x y) (p : PID) : y.Holds p ↔ x.Holds p := by
  unfold Holds
  simp only [h.node, (h.heap _).pid]

lemma noSender_unlinkAt (x : Tree) (side : Side) (id key : String) :
    (x.unlinkAt side id key).noSender = x.noSender := by
  unfold unlinkAt
  cases x.node id <;> rfl

lemma Intact.removeWatcher (h : Intact x) (watchee watcher : PID) :
    Loosened x (fun w p => w.id = watcher.id ∧ p.id = watchee.id) (fun _ _ => False)
      (x.removeWatcher (some watchee) (some watcher)) := by
  obtain ⟨halike, hwatched⟩ := h.watched.removeWatcher h.shape watchee watcher
  have hvalues : ∀ {m side key w},
      ((x.removeWatcher (some watchee) (some watcher)).heap m).linkOf side key = some w →
      (x.heap m).linkOf side key = some w :=
    fun hlink => linkOf_unlinkAt x _ _ _ (linkOf_unlinkAt _ _ _ _ hlink)
  have hmem : ∀ m key,
      key ∈ ((x.removeWatcher (some watchee) (some watcher)).heap m).linked .watchers ↔
        key ∈ (x.heap m).linked .watchers ∧ ¬(x.node watchee.id = some m ∧ key = watcher.id) := by
    intro m key
    obtain ⟨hfirst, hmem⟩ := unlinkAt_spec x .watchees watcher.id watchee.id
    have hmem' := (unlinkAt_spec (x.unlinkAt .watchees watcher.id watchee.id) .watchers watchee.id
      watcher.id).2 m .watchers key
    rw [hmem m .watchers key, hfirst.node] at hmem'
    refine hmem'.trans ?_
    simp
  have hnoSender : (x.removeWatcher (some watchee) (some watcher)).noSender = x.noSender :=
    (noSender_unlinkAt _ _ _ _).trans (noSender_unlinkAt _ _ _ _)
  generalize x.removeWatcher (some watchee) (some watcher) = y at *
  refine ⟨⟨h.shape.congr halike, hwatched, ?_⟩, hnoSender, halike.holds_iff, ?_, ?_⟩
  · intro id r hr side key w hlink
    rw [halike.node] at hr
    obtain ⟨hid, hholds⟩ := h.valued hr (hvalues hlink)
    exact ⟨hid, (halike.holds_iff w).mpr hholds⟩
  · intro w p
    unfold Watches
    simp only [halike.node, (halike.heap _).pid]
    constructor
    · rintro ⟨r, hr, hpid, hlink⟩
      refine ⟨⟨r, hr, hpid, hvalues hlink⟩, ?_⟩
      rintro ⟨hw, hp⟩
      have hstill := (hmem r w.id).mp ((mem_linked_iff _ _ _).mpr ⟨w, hlink⟩)
      exact hstill.2 ⟨hp ▸ hr, hw⟩
    · rintro ⟨⟨r, hr, hpid, hlink⟩, hnot⟩
      have hstill : w.id ∈ (y.heap r).linked .watchers := by
        refine (hmem r w.id).mpr ⟨(mem_linked_iff _ _ _).mpr ⟨w, hlink⟩, ?_⟩
        rintro ⟨hr', hw⟩
        exact hnot ⟨hw, h.shape.node_inj hr hr'⟩
      obtain ⟨w', hw'⟩ := (mem_linked_iff _ _ _).mp hstill
      have hold := hvalues hw'
      rw [hlink] at hold
      cases hold
      exact ⟨r, hr, hpid, hw'⟩
  · intro p c
    unfold Lists
    simp only [halike.node, (halike.heap _).pid, (halike.heap _).descendants, not_false_eq_true,
      and_true]

lemma Intact.removeDescendant (h : Intact x) (parentID childID : String) :
    Loosened x (fun _ _ => False) (fun p c => p.id = parentID ∧ c.id = childID)
      (x.removeDescendant parentID childID) := by
  have hheap : ∀ m, (x.removeDescendant parentID childID).heap m =
      if x.node parentID = some m then (x.heap m).dropDescendant childID else x.heap m := by
    intro m
    unfold Tree.removeDescendant
    cases x.node parentID with
    | none => simp
    | some r =>
      rw [elim_some, heap_modify]
      simp only [Option.some.injEq, eq_comm]
  have hindex : (x.removeDescendant parentID childID).pids = x.pids ∧
      (x.removeDescendant parentID childID).names = x.names ∧
      (x.removeDescendant parentID childID).counter = x.counter ∧
      (x.removeDescendant parentID childID).next = x.next ∧
      (x.removeDescendant parentID childID).rootNode = x.rootNode ∧
      (x.removeDescendant parentID childID).noSender = x.noSender := by
    unfold Tree.removeDescendant
    cases x.node parentID <;> exact ⟨rfl, rfl, rfl, rfl, rfl, rfl⟩
  generalize x.removeDescendant parentID childID = y at hheap hindex
  obtain ⟨hpids, hnames, hcounter, hnext, hroot, hsender⟩ := hindex
  have hnode : ∀ id, y.node id = x.node id := by
    intro id
    unfold Tree.node
    rw [hpids]
  have hpid : ∀ m, (y.heap m).pid = (x.heap m).pid := fun m => by rw [hheap]; split_ifs <;> rfl
  have hid : ∀ m, (y.heap m).id = (x.heap m).id := fun m => by rw [hheap]; split_ifs <;> rfl
  have hname : ∀ m, (y.heap m).name = (x.heap m).name := fun m => by rw [hheap]; split_ifs <;> rfl
  have hparent : ∀ m, (y.heap m).parentNode = (x.heap m).parentNode :=
    fun m => by rw [hheap]; split_ifs <;> rfl
  have hlinks : ∀ m side, (y.heap m).links side = (x.heap m).links side :=
    fun m side => by rw [hheap]; split_ifs <;> cases side <;> rfl
  have hlookup : ∀ m key, (y.heap m).descendants.lookup key =
      if x.node parentID = some m ∧ key = childID then none
      else (x.heap m).descendants.lookup key := by
    intro m key
    rw [hheap]
    by_cases hm : x.node parentID = some m
    · rw [if_pos hm]
      refine (lookup_erase_ite (x.heap m).descendants childID key).trans ?_
      simp [hm]
    · rw [if_neg hm, if_neg fun hcase => hm hcase.1]
  have hsub : ∀ {m key c}, (y.heap m).descendants.lookup key = some c →
      (x.heap m).descendants.lookup key = some c := by
    intro m key c hc
    rw [hlookup] at hc
    split_ifs at hc
    exact hc
  have hlinked : ∀ m side, (y.heap m).linked side = (x.heap m).linked side :=
    fun m side => linked_eq_of_links side (hlinks m side)
  have hlinkOf : ∀ m side key, (y.heap m).linkOf side key = (x.heap m).linkOf side key := by
    intro m side key
    unfold linkOf
    rw [hlinks]
  have hshape : Shape y :=
    { root_lt := by rw [hroot, hnext]; exact h.shape.root_lt
      known := fun {id r} hr => by
        rw [hnode] at hr
        rw [hnext, hid, hpid, hname]
        exact h.shape.known hr
      listed := fun {pid p} hp {id r} hr => by
        rw [hnode] at hp
        rw [hnode, hparent]
        exact h.shape.listed hp (hsub hr)
      acyclic := fun r hr => by
        refine h.shape.acyclic r (Relation.TransGen.mono ?_ r r hr)
        rintro c p ⟨pid, id, hp, hc⟩
        rw [hnode] at hp
        exact ⟨pid, id, hp, hsub hc⟩
      parent_ne := fun {id r} hr => by
        rw [hnode] at hr
        rw [hparent]
        exact h.shape.parent_ne hr
      rootless := fun {id r} hr => by
        rw [hnode] at hr
        rw [hparent, hroot]
        exact h.shape.rootless hr
      maps := fun {id r} hr hne side => by
        rw [hnode] at hr
        rw [hroot] at hne
        rw [hlinks]
        exact h.shape.maps hr hne side
      name := fun {name r} hn => by
        rw [hnames] at hn
        rw [hnode, hid, hname]
        exact h.shape.name hn
      count := by rw [hcounter, hpids]; exact h.shape.count
      root_known := fun hr => by
        rw [hroot, hpid] at hr
        rw [hroot, hnode, hid]
        exact h.shape.root_known hr
      root_blank := fun hr => by
        rw [hroot, hpid] at hr
        rw [hroot, hparent]
        obtain ⟨hnone, hempty⟩ := h.shape.root_blank hr
        refine ⟨hnone, fun key => ?_⟩
        rw [hlookup, hempty, ite_self] }
  have hwatched : Watched y :=
    { back := fun {id r} hr {side key} hkey => by
        rw [hnode] at hr
        rw [hlinked] at hkey
        obtain ⟨m, hm, hback⟩ := h.watched.back hr hkey
        exact ⟨m, (hnode key).trans hm, (hlinked m _).symm ▸ hback⟩
      root_blank := fun hr side => by
        rw [hroot, hpid] at hr
        rw [hroot, hlinked]
        exact h.watched.root_blank hr side }
  have hholds : ∀ p, y.Holds p ↔ x.Holds p := by
    intro p
    unfold Holds
    simp only [hnode, hpid]
  refine ⟨⟨hshape, hwatched, ?_⟩, hsender, hholds, ?_, ?_⟩
  · intro id r hr side key w hlink
    rw [hnode] at hr
    rw [hlinkOf] at hlink
    obtain ⟨hkey, hw⟩ := h.valued hr hlink
    exact ⟨hkey, (hholds w).mpr hw⟩
  · intro w p
    unfold Watches
    simp only [hnode, hpid, hlinkOf, not_false_eq_true, and_true]
  · intro p c
    unfold Lists
    simp only [hnode, hpid]
    constructor
    · rintro ⟨r, m, hr, hp, hc, hcpid⟩
      refine ⟨⟨r, m, hr, hp, hsub hc, hcpid⟩, ?_⟩
      rintro ⟨rfl, rfl⟩
      rw [hlookup, if_pos ⟨hr, rfl⟩] at hc
      cases hc
    · rintro ⟨⟨r, m, hr, hp, hc, hcpid⟩, hnot⟩
      refine ⟨r, m, hr, hp, ?_, hcpid⟩
      rw [hlookup, if_neg]
      · exact hc
      · rintro ⟨hr', hkey⟩
        exact hnot ⟨h.shape.node_inj hr hr', hkey⟩

/-! ## Deleting an actor without listed children -/

/-- What is left of the tree when one PID is deleted. -/
structure Without (x : Tree) (gone : PID) (y : Tree) : Prop where
  intact : Intact y
  noSender : y.noSender = x.noSender
  holds : ∀ p, y.Holds p ↔ x.Holds p ∧ p ≠ gone
  watches : ∀ w p, y.Watches w p ↔ x.Watches w p ∧ w ≠ gone ∧ p ≠ gone
  lists : ∀ p c, y.Lists p c ↔ x.Lists p c ∧ p ≠ gone ∧ c ≠ gone

lemma noSender_removeNode (x : Tree) (r : Ref) : (x.removeNode r).noSender = x.noSender := by
  have hunlink : ∀ (x : Tree) (side : Side) (id : String) (keys : List String),
      (keys.foldl (fun x key => x.unlinkAt side key id) x).noSender = x.noSender := by
    intro x side id keys
    induction keys generalizing x with
    | nil => rfl
    | cons k keys ih => exact (ih _).trans (noSender_unlinkAt x side k id)
  have hparent : ∀ x : Tree, (x.unlinkParent r).noSender = x.noSender := by
    intro x
    unfold unlinkParent
    cases (x.heap r).parentNode <;> rfl
  unfold removeNode
  split_ifs
  · rfl
  · exact (hparent _).trans ((hunlink _ _ _ _).trans (hunlink _ _ _ _))

lemma deleteNode_of_node_none {equalFold : String → String → Bool} {sys : Option PID}
    {ranging : Ranging} {p : PID} (h : x.node p.id = none) :
    x.deleteNode equalFold sys ranging (some p) = some x := by
  unfold Tree.deleteNode
  dsimp only
  rw [h]
  split_ifs <;> rfl

lemma Intact.deleteNode {equalFold : String → String → Bool} (h : Intact x) (sys : Option PID)
    (ranging : Ranging) {p : PID} (hp : x.Holds p) (hleaf : ∀ c, ¬x.Lists p c)
    (hsender : p.equals equalFold (x.noSender.or sys) = false) :
    ∃ y, x.deleteNode equalFold sys ranging (some p) = some y ∧ Without x p y := by
  obtain ⟨start, hstart, hpid⟩ := hp
  obtain ⟨post, hpost, hmem, hdeleted⟩ := h.shape.deleted_subtree h.watched ranging hstart
  have honly : ∀ r, r ∈ post ↔ r = start := by
    intro r
    rw [hmem]
    refine ⟨fun hbelow => ?_, fun hr => hr ▸ Below.refl⟩
    -- a listed child would be a child that the PID lists
    rcases Relation.ReflTransGen.cases_tail hbelow with heq | ⟨c, -, pid, id, hs, hc⟩
    · exact heq.symm
    · obtain rfl : pid = p.id := h.shape.node_inj hs hstart
      obtain ⟨cp, hcp, hid, -⟩ := (h.shape.known (h.shape.listed hs hc).1).2.2
      exact absurd ⟨start, c, hs, hpid, hid.symm ▸ hc, hcp⟩ (hleaf cp)
  have hdelete : x.deleteNode equalFold sys ranging (some p) =
      some (post.reverse.foldl removeNode x) := by
    unfold Tree.deleteNode
    dsimp only
    rw [if_neg (Bool.eq_false_iff.mp hsender)]
    simp only [hstart, hpost, map_some]
  have hsend : ∀ (l : List Ref) (x : Tree), (l.foldl removeNode x).noSender = x.noSender := by
    intro l
    induction l with
    | nil => exact fun _ => rfl
    | cons r l ih => exact fun x => (ih _).trans (noSender_removeNode x r)
  have hnoSender := hsend post.reverse x
  generalize post.reverse.foldl removeNode x = y at hdeleted hdelete hnoSender
  have hne : ∀ {q : PID} {r : Ref}, x.node q.id = some r → (x.heap r).pid = some q →
      (r ∉ post ↔ q ≠ p) := by
    intro q r hr hq
    rw [honly, not_iff_not]
    constructor
    · rintro rfl
      exact Option.some.inj (hq.symm.trans hpid)
    · rintro rfl
      exact Option.some.inj (hr.symm.trans hstart)
  have hholds : ∀ q, y.Holds q ↔ x.Holds q ∧ q ≠ p := by
    intro q
    constructor
    · rintro ⟨r, hr, hq⟩
      obtain ⟨hr, hout⟩ := hdeleted.node.mp hr
      rw [hdeleted.pid hout] at hq
      exact ⟨⟨r, hr, hq⟩, (hne hr hq).mp hout⟩
    · rintro ⟨⟨r, hr, hq⟩, hqp⟩
      have hout := (hne hr hq).mpr hqp
      exact ⟨r, hdeleted.node.mpr ⟨hr, hout⟩, (hdeleted.pid hout).trans hq⟩
  have hvalued : ∀ {id r}, y.node id = some r → ∀ {side key w},
      (y.heap r).linkOf side key = some w → w.id = key ∧ y.Holds w := by
    intro id r hr side key w hlink
    obtain ⟨hr', hout⟩ := hdeleted.node.mp hr
    obtain ⟨hid, hw⟩ := h.valued hr' (hdeleted.values hout hlink)
    obtain ⟨m, hm, -⟩ := hdeleted.watched.back hr ((mem_linked_iff _ _ _).mpr ⟨w, hlink⟩)
    obtain ⟨hm', hout'⟩ := hdeleted.node.mp hm
    obtain ⟨m', hm'', hwpid⟩ := hw
    rw [hid, hm'] at hm''
    cases hm''
    exact ⟨hid, m, hid.symm ▸ hm, (hdeleted.pid hout').trans hwpid⟩
  refine ⟨y, hdelete, ⟨hdeleted.shape, hdeleted.watched, hvalued⟩, hnoSender, hholds, ?_, ?_⟩
  · intro w q
    constructor
    · rintro ⟨r, hr, hq, hlink⟩
      have hw := (hholds w).mp (hvalued hr hlink).2
      obtain ⟨hr', hout⟩ := hdeleted.node.mp hr
      rw [hdeleted.pid hout] at hq
      exact ⟨⟨r, hr', hq, hdeleted.values hout hlink⟩, hw.2, (hne hr' hq).mp hout⟩
    · rintro ⟨⟨r, hr, hq, hlink⟩, hwp, hqp⟩
      have hout := (hne hr hq).mpr hqp
      obtain ⟨m, hm, -⟩ := (hholds w).mpr ⟨(h.valued hr hlink).2, hwp⟩
      have hkey : w.id ∈ (y.heap r).linked .watchers :=
        (hdeleted.linked hout (by rw [hm]; rfl)).mpr ((mem_linked_iff _ _ _).mpr ⟨w, hlink⟩)
      obtain ⟨w', hw'⟩ := (mem_linked_iff _ _ _).mp hkey
      have hold := hdeleted.values hout hw'
      rw [hlink] at hold
      cases hold
      exact ⟨r, hdeleted.node.mpr ⟨hr, hout⟩, (hdeleted.pid hout).trans hq, hw'⟩
  · intro q c
    constructor
    · rintro ⟨r, m, hr, hq, hc, hcpid⟩
      obtain ⟨hr', hout⟩ := hdeleted.node.mp hr
      rw [hdeleted.pid hout] at hq
      obtain ⟨hc', hout'⟩ := (hdeleted.lookup hr' hout).mp hc
      rw [hdeleted.pid hout'] at hcpid
      have hcnode := (h.shape.listed hr' hc').1
      exact ⟨⟨r, m, hr', hq, hc', hcpid⟩, (hne hr' hq).mp hout, (hne hcnode hcpid).mp hout'⟩
    · rintro ⟨⟨r, m, hr, hq, hc, hcpid⟩, hqp, hcp⟩
      have hout := (hne hr hq).mpr hqp
      have hout' := (hne (h.shape.listed hr hc).1 hcpid).mpr hcp
      exact ⟨r, m, hdeleted.node.mpr ⟨hr, hout⟩, (hdeleted.pid hout).trans hq,
        (hdeleted.lookup hr hout).mpr ⟨hc, hout'⟩, (hdeleted.pid hout').trans hcpid⟩

/-!
## Adding actors and watchers

What a call that adds leaves for the callers of the tree to see: the PIDs that are held
afterwards, who watches whom and who lists whom. The calls here are made for a parent and
a watcher that the tree holds.
-/
variable {x y z : Tree} {equalFold : String → String → Bool} {sys : Option PID} {side : Side}
  {pid : PID} {r : Ref}

lemma linkOf_of_link {id : String}
    (h : x.link r side id pid = some y) (m : Ref) (other : Side) (key : String) :
    (y.heap m).linkOf other key =
      if m = r ∧ other = side ∧ key = id then some pid else (x.heap m).linkOf other key := by
  obtain ⟨links, hlinks, rfl⟩ := map_eq_some_iff.mp h
  rw [heap_modify]
  by_cases hm : m = r
  · subst hm
    rw [if_pos rfl, PidNode.linkOf_insert _ _ _ _ _ hlinks]
    simp
  · simp [hm]

lemma noSender_of_link {id : String}
    (h : x.link r side id pid = some y) : y.noSender = x.noSender := by
  obtain ⟨links, -, rfl⟩ := map_eq_some_iff.mp h
  rfl

/-! ## Watching -/

/-- What is added when one PID comes to watch another. -/
structure Widened (x : Tree) (watcher pid : PID) (y : Tree) : Prop where
  intact : Intact y
  noSender : y.noSender = x.noSender
  holds : ∀ p, y.Holds p ↔ x.Holds p
  watches : ∀ w p, y.Watches w p ↔ x.Watches w p ∨ (w = watcher ∧ p = pid)
  lists : ∀ p c, y.Lists p c ↔ x.Lists p c

/-- Both halves of a watch relation, in either order. -/
lemma Intact.link_pair (h : Intact x) {watcher pid : PID} {a b : Ref} {pa pb : PID}
    (ha : x.node pa.id = some a) (hapid : (x.heap a).pid = some pa)
    (hb : x.node pb.id = some b) (hbpid : (x.heap b).pid = some pb)
    (hy : x.link a side pb.id pb = some y) (hz : y.link b side.opposite pa.id pa = some z)
    (hside : (side = .watchees ∧ watcher = pa ∧ pid = pb) ∨
      (side = .watchers ∧ watcher = pb ∧ pid = pa)) : Widened x watcher pid z := by
  obtain ⟨halike, hwatched⟩ := h.watched.link_pair h.shape ha hb hy hz
  have hholds := halike.holds_iff
  have hlink : ∀ m other key, (z.heap m).linkOf other key =
      if m = b ∧ other = side.opposite ∧ key = pa.id then some pa
      else if m = a ∧ other = side ∧ key = pb.id then some pb
      else (x.heap m).linkOf other key := by
    intro m other key
    rw [linkOf_of_link hz, linkOf_of_link hy]
  refine ⟨⟨h.shape.congr halike, hwatched, ?_⟩, ?_, hholds, ?_, ?_⟩
  · intro id r hr other key w hw
    rw [hlink] at hw
    rw [hholds]
    split_ifs at hw with hnew hnew'
    · cases hw
      exact ⟨hnew.2.2.symm, a, ha, hapid⟩
    · cases hw
      exact ⟨hnew'.2.2.symm, b, hb, hbpid⟩
    · rw [halike.node] at hr
      exact h.valued hr hw
  · exact (noSender_of_link hz).trans (noSender_of_link hy)
  · intro w p
    -- only the entry under the watcher's ID at the watchee's node is read
    have hentry : ∀ {m : Ref}, x.node p.id = some m → (x.heap m).pid = some p →
        (z.heap m).linkOf .watchers w.id =
          if p = pid ∧ w.id = watcher.id then some watcher
          else (x.heap m).linkOf .watchers w.id := by
      intro m hm hp
      have hnode : ∀ {q : PID} {c : Ref}, x.node q.id = some c → (x.heap c).pid = some q →
          (m = c ↔ p = q) := by
        intro q c hc hq
        constructor
        · rintro rfl
          exact some.inj (hp.symm.trans hq)
        · rintro rfl
          exact some.inj (hm.symm.trans hc)
      rw [hlink]
      simp only [hnode hb hbpid, hnode ha hapid]
      rcases hside with ⟨rfl, rfl, rfl⟩ | ⟨rfl, rfl, rfl⟩
      · simp [Side.opposite]
      · simp [Side.opposite]
    have hwatcher : x.Holds watcher := by
      rcases hside with ⟨-, rfl, -⟩ | ⟨-, rfl, -⟩
      · exact ⟨a, ha, hapid⟩
      · exact ⟨b, hb, hbpid⟩
    have hpid : x.Holds pid := by
      rcases hside with ⟨-, -, rfl⟩ | ⟨-, -, rfl⟩
      · exact ⟨b, hb, hbpid⟩
      · exact ⟨a, ha, hapid⟩
    constructor
    · rintro ⟨r, hr, hp, hw⟩
      rw [halike.node] at hr
      rw [(halike.heap r).pid] at hp
      rw [hentry hr hp] at hw
      split_ifs at hw with hnew
      · exact .inr ⟨(some.inj hw).symm, hnew.1⟩
      · exact .inl ⟨r, hr, hp, hw⟩
    · rintro (⟨r, hr, hp, hw⟩ | ⟨rfl, rfl⟩)
      · refine ⟨r, (halike.node _).trans hr, (halike.heap r).pid.trans hp, ?_⟩
        rw [hentry hr hp]
        split_ifs with hnew
        · rw [(h.valued hr hw).2.inj hwatcher hnew.2]
        · exact hw
      · obtain ⟨r, hr, hp⟩ := hpid
        refine ⟨r, (halike.node _).trans hr, (halike.heap r).pid.trans hp, ?_⟩
        rw [hentry hr hp, if_pos ⟨rfl, rfl⟩]
  · intro p c
    unfold Lists
    simp only [halike.node, (halike.heap _).pid, (halike.heap _).descendants]

/-- A call for NoSender does nothing. -/
lemma Intact.addWatcher (h : Intact x) {pid watcher : PID} (hpid : x.Holds pid)
    (hwatcher : x.Holds watcher)
    (hcall : x.addWatcher equalFold sys (some pid) (some watcher) = some y) :
    Widened x watcher pid y ∨ (y = x ∧ (pid.equals equalFold (x.noSender.or sys) = true ∨
      watcher.equals equalFold (x.noSender.or sys) = true)) := by
  obtain ⟨b, hb, hbpid⟩ := hpid
  obtain ⟨a, ha, hapid⟩ := hwatcher
  unfold Tree.addWatcher at hcall
  dsimp only at hcall
  split_ifs at hcall with hsender
  · cases hcall
    exact .inr ⟨rfl, by simpa using hsender⟩
  · simp only [hb, ha, bind_eq_bind] at hcall
    obtain ⟨x', hx', hy⟩ := bind_eq_some_iff.mp hcall
    exact .inl (h.link_pair hb hbpid ha hapid hx' hy (.inr ⟨rfl, rfl, rfl⟩))

/-! ## A new PID -/

/-- What is added when the tree takes a PID, under a parent or as the root. -/
structure Entered (x : Tree) (pid : PID) (under : Option PID) (y : Tree) : Prop where
  intact : Intact y
  holds : ∀ p, y.Holds p ↔ x.Holds p ∨ p = pid
  watches : ∀ w p, y.Watches w p ↔ x.Watches w p
  lists : ∀ p c, y.Lists p c ↔ x.Lists p c ∨ (under = some p ∧ c = pid)

lemma Enters.entered (h : Intact x) (he : Enters x pid r y)
    {under : Option PID} (hunder : (under = none ∧ (y.heap r).parentNode = none) ∨
      ∃ parent m, under = some parent ∧ x.node parent.id = some m ∧
        (x.heap m).pid = some parent ∧ (y.heap r).parentNode = some m) : Entered x pid under y := by
  have hlinkOf : ∀ {m}, m ≠ r → ∀ side key,
      (y.heap m).linkOf side key = (x.heap m).linkOf side key := by
    intro m hm side key
    unfold PidNode.linkOf
    rw [he.links_eq hm]
  have hblank : ∀ side key, (y.heap r).linkOf side key = none := by
    intro side key
    rw [eq_none_iff_forall_ne_some]
    intro w hw
    have hmem := (PidNode.mem_linked_iff _ _ _).mpr ⟨w, hw⟩
    rw [he.unlinked] at hmem
    cases hmem
  have hholds : ∀ p, y.Holds p ↔ x.Holds p ∨ p = pid := by
    intro p
    constructor
    · rintro ⟨m, hm, hp⟩
      rcases he.node_cases hm with ⟨-, rfl⟩ | ⟨hm, hne⟩
      · exact .inr (some.inj (hp.symm.trans he.self.1))
      · exact .inl ⟨m, hm, (he.pid_eq hne).symm.trans hp⟩
    · rintro (⟨m, hm, hp⟩ | rfl)
      · exact ⟨m, he.node_of_node hm, (he.pid_eq (he.ne hm)).trans hp⟩
      · exact ⟨r, he.node_self, he.self.1⟩
  refine ⟨⟨he.shape h.shape, he.watched h.watched, ?_⟩, hholds, ?_, ?_⟩
  · intro id m hm side key w hw
    rcases he.node_cases hm with ⟨-, rfl⟩ | ⟨hm, hne⟩
    · rw [hblank] at hw
      cases hw
    · rw [hlinkOf hne] at hw
      exact ⟨(h.valued hm hw).1, (hholds w).mpr (.inl (h.valued hm hw).2)⟩
  · intro w p
    constructor
    · rintro ⟨m, hm, hp, hw⟩
      rcases he.node_cases hm with ⟨-, rfl⟩ | ⟨hm, hne⟩
      · rw [hblank] at hw
        cases hw
      · rw [he.pid_eq hne] at hp
        rw [hlinkOf hne] at hw
        exact ⟨m, hm, hp, hw⟩
    · rintro ⟨m, hm, hp, hw⟩
      have hne := he.ne hm
      exact ⟨m, he.node_of_node hm, (he.pid_eq hne).trans hp, (hlinkOf hne _ _).trans hw⟩
  · intro p c
    constructor
    · rintro ⟨m, k, hm, hp, hk, hc⟩
      rcases he.node_cases hm with ⟨-, rfl⟩ | ⟨hm, hne⟩
      · rw [he.childless] at hk
        cases hk
      · rw [he.pid_eq hne] at hp
        rw [he.descendants hne] at hk
        split_ifs at hk with hnew
        · cases hk
          refine .inr ⟨?_, some.inj (hc.symm.trans he.self.1)⟩
          rcases hunder with ⟨-, hnone⟩ | ⟨parent, m', hunder, -, hparent, hm'⟩
          · exact nomatch hnone.symm.trans hnew.1
          · obtain rfl := some.inj (hm'.symm.trans hnew.1)
            rw [hunder, ← hparent, hp]
        · have hkne := he.ne (h.shape.listed hm hk).1
          exact .inl ⟨m, k, hm, hp, hk, (he.pid_eq hkne).symm.trans hc⟩
    · rintro (⟨m, k, hm, hp, hk, hc⟩ | ⟨hp, rfl⟩)
      · have hne := he.ne hm
        have hknode := (h.shape.listed hm hk).1
        refine ⟨m, k, he.node_of_node hm, (he.pid_eq hne).trans hp, ?_,
          (he.pid_eq (he.ne hknode)).trans hc⟩
        rw [he.descendants hne, if_neg]
        · exact hk
        · rintro ⟨-, hid⟩
          rw [hid, he.new] at hknode
          cases hknode
      · rcases hunder with ⟨hnone, -⟩ | ⟨parent, m, hunder, hm, hparent, hm'⟩
        · exact nomatch hnone.symm.trans hp
        · obtain rfl := some.inj (hunder.symm.trans hp)
          have hne := he.ne hm
          refine ⟨m, r, he.node_of_node hm, (he.pid_eq hne).trans hparent, ?_, he.self.1⟩
          rw [he.descendants hne, if_pos ⟨hm', rfl⟩]

lemma Intact.cacheNoSender (h : Intact x) (sys : Option PID) : Intact (x.cacheNoSender sys) :=
  ⟨{ h.shape with }, { h.watched with }, h.valued⟩

/-- What is added when a new PID is spawned under a parent. -/
structure Spawned (x : Tree) (parent pid : PID) (y : Tree) : Prop where
  intact : Intact y
  new : x.node pid.id = none
  holds : ∀ p, y.Holds p ↔ x.Holds p ∨ p = pid
  watches : ∀ w p, y.Watches w p ↔ x.Watches w p ∨ (w = parent ∧ p = pid)
  lists : ∀ p c, y.Lists p c ↔ x.Lists p c ∨ (p = parent ∧ c = pid)

/-- The call fails only for a parent that is NoSender, an ID that is in use and a parent
that is not registered. -/
lemma addNode_error {parent pid : PID} {e : Option String}
    (hsender : parent.equals equalFold (x.noSender.or sys) = false)
    (hnew : x.node pid.id = none) (hparent : (x.node parent.id).isSome)
    (hcall : x.addNode equalFold sys (some parent) (some pid) = some (y, e)) : e = none := by
  obtain ⟨p, hp⟩ := isSome_iff_exists.mp hparent
  have hsender' : parent.equals equalFold (x.cacheNoSender sys).noSender = false := hsender
  have hnew' : (x.cacheNoSender sys).node pid.id = none := hnew
  have hp' : (x.cacheNoSender sys).node parent.id = some p := hp
  unfold Tree.addNode Tree.addNodeLocked at hcall
  dsimp only at hcall
  simp only [hsender', hnew', hp', Bool.false_eq_true, if_false, isSome_none, bind_eq_bind] at hcall
  obtain ⟨x₁, -, hrest⟩ := bind_eq_some_iff.mp hcall
  obtain ⟨x₂, -, hlast⟩ := bind_eq_some_iff.mp hrest
  exact (Prod.ext_iff.mp (some.inj hlast)).2.symm

lemma Intact.addNode (h : Intact x) {parent pid : PID} (hparent : x.Holds parent)
    (hcall : x.addNode equalFold sys (some parent) (some pid) = some (y, none)) :
    Spawned x parent pid y ∧ y.noSender = x.noSender.or sys := by
  have hcached := h.cacheNoSender sys
  obtain ⟨p, hp, hppid⟩ := hparent
  unfold Tree.addNode Tree.addNodeLocked at hcall
  dsimp only at hcall
  split_ifs at hcall with hsender hknown
  · cases hcall
  · cases hcall
  have hp' : (x.cacheNoSender sys).node parent.id = some p := hp
  simp only [hp', bind_eq_bind] at hcall
  obtain ⟨x₁, hx₁, hrest⟩ := bind_eq_some_iff.mp hcall
  obtain ⟨x₂, hx₂, hlast⟩ := bind_eq_some_iff.mp hrest
  obtain rfl : x₂ = y := (Prod.ext_iff.mp (some.inj hlast)).1
  have hnew : x.node pid.id = none := not_isSome_iff_eq_none.mp hknown
  have hne : p ≠ (x.cacheNoSender sys).next := (h.shape.known hp).1.ne
  have hmap : ((x.heap p).links .watchees).isSome := by
    obtain ⟨m, hm, -⟩ := map_eq_some_iff.mp hx₁
    rw [heap_register hne, if_pos rfl] at hm
    exact isSome_iff_exists.mpr ⟨m, hm⟩
  have henters := enters_register hcached.shape hp' hmap hnew
  have hentered : Entered (x.cacheNoSender sys) pid (some parent) _ :=
    henters.entered hcached (.inr ⟨parent, p, rfl, hp, hppid, by
      rw [heap_register hne, if_neg hne.symm, if_pos rfl]
      rfl⟩)
  have hwide := hentered.intact.link_pair (henters.node_of_node hp')
    ((henters.pid_eq (henters.ne hp')).trans hppid) henters.node_self henters.self.1 hx₁ hx₂
    (.inl ⟨rfl, rfl, rfl⟩)
  refine ⟨⟨hwide.intact, hnew, ?_, ?_, ?_⟩, hwide.noSender⟩
  · exact fun q => (hwide.holds q).trans (hentered.holds q)
  · exact fun w q => (hwide.watches w q).trans (or_congr_left (hentered.watches w q))
  · intro q c
    refine (hwide.lists q c).trans ((hentered.lists q c).trans ?_)
    simp only [some.injEq, eq_comm]
    rfl

end Tree
end GoAkt.Actor
