import GoAkt.Multimaps

/-!
# The registry of remote watches

A node records which remote actors watch its actors and which remote actors its actors
watch. Each of the two relations is kept twice, by local actor and by the host of the remote
one. When a node leaves the cluster, everything under its host is dropped, and the local
watchers of actors there are told that those have terminated.

An address is identified with its canonical text.
-/
namespace GoAkt.Actor
open GoAkt.FiniteMaps List

/-- The address of an actor: `goakt://system@host:port/parent/name`. -/
structure Address where
  system : String
  host : String
  port : ℕ
  parent : Option String
  name : String
deriving DecidableEq

/-- One of the two relations of the registry, by local actor and by remote host. -/
structure RemoteIndex where
  byPID : Multimap String Address
  byHost : Grouped String String Address
  agree : ∀ host id address, address ∈ (byHost.group host).values id ↔
    address.host = host ∧ address ∈ byPID.values id

namespace RemoteIndex

def empty : RemoteIndex where
  byPID := Multimap.empty
  byHost := Grouped.empty
  agree _ _ _ := ⟨nofun, fun h => (nomatch h.2)⟩

/-- `addWatcher` and `addWatchee`. -/
def add (r : RemoteIndex) (id : String) (address : Address) : RemoteIndex :=
  if id = "" then r
  else
    { byPID := r.byPID.add id address
      byHost := r.byHost.add address.host id address
      agree := fun host id' address' => by
        rw [Grouped.mem_group_add, Multimap.mem_values_add, r.agree]
        constructor
        · rintro (⟨rfl, rfl, rfl⟩ | ⟨hhost, hmem⟩)
          · exact ⟨rfl, .inl ⟨rfl, rfl⟩⟩
          · exact ⟨hhost, .inr hmem⟩
        · rintro ⟨rfl, ⟨rfl, rfl⟩ | hmem⟩
          · exact .inl ⟨rfl, rfl, rfl⟩
          · exact .inr ⟨rfl, hmem⟩ }

/-- `removeWatcher` and `removeWatchee`. -/
def remove (r : RemoteIndex) (id : String) (address : Address) : RemoteIndex :=
  if id = "" then r
  else
    { byPID := r.byPID.remove id address
      byHost := r.byHost.remove address.host id address
      agree := fun host id' address' => by
        rw [Grouped.mem_group_remove, Multimap.mem_values_remove, r.agree]
        constructor
        · rintro ⟨⟨rfl, hmem⟩, hne⟩
          refine ⟨rfl, hmem, ?_⟩
          rintro ⟨rfl, rfl⟩
          exact hne ⟨rfl, rfl, rfl⟩
        · rintro ⟨rfl, hmem, hne⟩
          exact ⟨⟨rfl, hmem⟩, fun hand => hne hand.2⟩ }

variable (byHost : Grouped String String Address) (id : String) (addresses : List Address)

/-- The loop of `dropPID` over the addresses of a local actor. -/
def dropAddresses : Grouped String String Address :=
  addresses.foldl (fun byHost address => byHost.remove address.host id address) byHost

lemma mem_dropAddresses (host id' : String) (address : Address) :
    address ∈ ((dropAddresses byHost id addresses).group host).values id' ↔
      address ∈ (byHost.group host).values id' ∧
        ¬(address.host = host ∧ id' = id ∧ address ∈ addresses) := by
  unfold dropAddresses
  induction addresses generalizing byHost with
  | nil => simp
  | cons first rest ih =>
    rw [foldl_cons, ih, Grouped.mem_group_remove, and_assoc, and_congr_right_iff, mem_cons]
    intro _
    constructor
    · rintro ⟨hfirst, hrest⟩ ⟨hhost, hid, rfl | hmem⟩
      · exact hfirst ⟨hhost.symm, hid, rfl⟩
      · exact hrest ⟨hhost, hid, hmem⟩
    · intro hnone
      refine ⟨?_, fun hand => hnone ⟨hand.1, hand.2.1, .inr hand.2.2⟩⟩
      rintro ⟨hhost, hid, rfl⟩
      exact hnone ⟨hhost.symm, hid, .inl rfl⟩

def dropPID (r : RemoteIndex) (id : String) : RemoteIndex :=
  if id = "" then r
  else
    { byPID := r.byPID.drop id
      byHost := dropAddresses r.byHost id (r.byPID.values id)
      agree := fun host id' address => by
        rw [mem_dropAddresses, Multimap.mem_values_drop, r.agree]
        constructor
        · rintro ⟨⟨rfl, hmem⟩, hnone⟩
          refine ⟨rfl, hmem, ?_⟩
          rintro rfl
          exact hnone ⟨rfl, rfl, hmem⟩
        · rintro ⟨rfl, hmem, hid⟩
          exact ⟨⟨rfl, hmem⟩, fun hand => hid hand.2.1⟩ }

/-- The body of the loop of `dropHost`: a pair that is registered is removed and reported. -/
def visit (acc : Multimap String Address × List (String × Address)) (entry : String × Address) :
    Multimap String Address × List (String × Address) :=
  if entry.2 ∈ acc.1.values entry.1 then (acc.1.remove entry.1 entry.2, acc.2 ++ [entry]) else acc

/-- The loop removes and reports every pair that it visits, if all are registered. -/
lemma foldl_visit (byPID : Multimap String Address) (entries : List (String × Address))
    (pairs : List (String × Address)) (hnodup : pairs.Nodup)
    (hmem : ∀ pair ∈ pairs, pair.2 ∈ byPID.values pair.1) :
    (pairs.foldl visit (byPID, entries)).2 = entries ++ pairs ∧
      ∀ id address, address ∈ (pairs.foldl visit (byPID, entries)).1.values id ↔
        address ∈ byPID.values id ∧ (id, address) ∉ pairs := by
  induction pairs generalizing byPID entries with
  | nil => simp
  | cons pair rest ih =>
    rw [nodup_cons] at hnodup
    have hfirst : visit (byPID, entries) pair =
        (byPID.remove pair.1 pair.2, entries ++ [pair]) :=
      if_pos (hmem pair mem_cons_self)
    rw [foldl_cons, hfirst]
    obtain ⟨hentries, hvalues⟩ := ih (byPID.remove pair.1 pair.2) (entries ++ [pair]) hnodup.2
      (fun other hother => by
        rw [Multimap.mem_values_remove]
        refine ⟨hmem other (mem_cons_of_mem _ hother), fun hand => ?_⟩
        exact hnodup.1 (Prod.ext hand.1 hand.2 ▸ hother))
    refine ⟨by rw [hentries, append_assoc, singleton_append], fun id address => ?_⟩
    rw [hvalues, Multimap.mem_values_remove, mem_cons, not_or, and_assoc, Prod.ext_iff]

/-- What is left under a host and what was there. -/
def dropHost (r : RemoteIndex) (host : String) : RemoteIndex × List (String × Address) :=
  if host = "" then (r, [])
  else
    let result := (r.byHost.group host).pairs.foldl visit (r.byPID, [])
    ({ byPID := result.1
       byHost := r.byHost.drop host
       agree := fun host' id address => by
        rw [Grouped.mem_group_drop, r.agree, (foldl_visit r.byPID [] _ (Multimap.pairs_nodup _)
          (fun pair hpair => ((r.agree _ _ _).mp ((Multimap.mem_pairs _ _ _).mp hpair)).2)).2,
          Multimap.mem_pairs, r.agree]
        constructor
        · rintro ⟨⟨rfl, hmem⟩, hne⟩
          exact ⟨rfl, hmem, fun hand => hne hand.1⟩
        · rintro ⟨rfl, hmem, hnone⟩
          exact ⟨⟨rfl, hmem⟩, fun hhost => hnone ⟨hhost, hmem⟩⟩ }, result.2)

variable (r : RemoteIndex) {host : String}

lemma entries_dropHost (hhost : host ≠ "") : (r.dropHost host).2 = (r.byHost.group host).pairs := by
  unfold dropHost
  rw [if_neg hhost]
  exact (foldl_visit r.byPID [] _ (Multimap.pairs_nodup _) fun pair hpair =>
    ((r.agree _ _ _).mp ((Multimap.mem_pairs _ _ _).mp hpair)).2).1

lemma mem_entries_dropHost (hhost : host ≠ "") (id : String) (address : Address) :
    (id, address) ∈ (r.dropHost host).2 ↔ address.host = host ∧ address ∈ r.byPID.values id := by
  rw [entries_dropHost r hhost, Multimap.mem_pairs, r.agree]

lemma mem_dropHost (hhost : host ≠ "") (id : String) (address : Address) :
    address ∈ (r.dropHost host).1.byPID.values id ↔
      address ∈ r.byPID.values id ∧ address.host ≠ host := by
  -- the new index agrees with itself, and nothing is left under the host
  have hbyHost : (r.dropHost host).1.byHost = r.byHost.drop host := by
    unfold dropHost
    rw [if_neg hhost]
  have hagree := (r.dropHost host).1.agree address.host id address
  rw [hbyHost, Grouped.mem_group_drop, r.agree] at hagree
  constructor
  · intro hmem
    obtain ⟨⟨-, hold⟩, hne⟩ := hagree.mpr ⟨rfl, hmem⟩
    exact ⟨hold, hne⟩
  · rintro ⟨hold, hne⟩
    exact (hagree.mp ⟨⟨rfl, hold⟩, hne⟩).2

/-- No inner map is empty. -/
structure Sparse : Prop where
  byPID : ∀ id addresses, r.byPID.cells.lookup id = some addresses → addresses ≠ []
  byHost : ∀ host m, r.byHost.groups.lookup host = some m → m.cells.entries ≠ []
  inHost : ∀ host m, r.byHost.groups.lookup host = some m →
    ∀ id addresses, m.cells.lookup id = some addresses → addresses ≠ []

/-- What is returned for a host is what was registered there, each pair once, and it is removed. -/
structure DropsExactly (host : String) : Prop where
  once : (r.dropHost host).2.Nodup
  returned : ∀ id address, (id, address) ∈ (r.dropHost host).2 ↔
    address.host = host ∧ address ∈ r.byPID.values id
  removed : ∀ id address, address ∈ (r.dropHost host).1.byPID.values id ↔
    address ∈ r.byPID.values id ∧ address.host ≠ host

/-- The two indexes agree and have no empty inner map, `dropHost` drops exactly what is registered
under a host, and nothing without one. -/
structure Agrees : Prop where
  same : ∀ id address, address ∈ r.byPID.values id ↔
    address ∈ (r.byHost.group address.host).values id
  sparse : r.Sparse
  drops : ∀ host, host ≠ "" → r.DropsExactly host
  ignores : r.dropHost "" = (r, [])

lemma agrees : r.Agrees where
  same id address := by
    rw [r.agree]
    exact (and_iff_right rfl).symm
  sparse := by
    refine ⟨r.byPID.nonempty, fun host m hm hempty => ?_, fun _ m _ => m.nonempty⟩
    exact r.byHost.nonempty host m hm (by rw [Multimap.pairs, hempty]; rfl)
  drops _ hhost := ⟨r.entries_dropHost hhost ▸ Multimap.pairs_nodup _,
    r.mem_entries_dropHost hhost, r.mem_dropHost hhost⟩
  ignores := rfl

end RemoteIndex

structure RemoteWatchRegistry where
  watchers : RemoteIndex
  watchees : RemoteIndex

/-- The address under which the cluster knows a node. One that is not a host and a port is
taken for a host as it is. -/
inductive NodeAddress
  | hostPort (host : String) (port : ℕ)
  | other (text : String)

def NodeAddress.splitHost : NodeAddress → String
  | .hostPort host _ => host
  | .other text => text

/-- A node of the cluster, with the ports of its two layers. -/
structure ClusterNode where
  host : String
  peersPort : ℕ
  remotingPort : ℕ
  host_ne_empty : host ≠ ""

def ClusterNode.peersAddress (node : ClusterNode) : NodeAddress :=
  .hostPort node.host node.peersPort

/-- The actor at the address lives on the node. -/
def Address.LivesOn (address : Address) (node : ClusterNode) : Prop :=
  address.host = node.host ∧ address.port = node.remotingPort

instance (address : Address) (node : ClusterNode) : Decidable (address.LivesOn node) :=
  inferInstanceAs (Decidable (_ ∧ _))

structure Terminated where
  actorPath : Address
  terminatedAt : ℤ
deriving DecidableEq

namespace RemoteWatchRegistry

/-- The calls that change the registry. -/
inductive Call
  | addWatcher (id : String) (watcher : Address)
  | removeWatcher (id : String) (watcher : Address)
  | addWatchee (id : String) (watchee : Address)
  | removeWatchee (id : String) (watchee : Address)
  | dropPID (id : String)
  | dropHost (host : String)

def call (r : RemoteWatchRegistry) : Call → RemoteWatchRegistry
  | .addWatcher id watcher => { r with watchers := r.watchers.add id watcher }
  | .removeWatcher id watcher => { r with watchers := r.watchers.remove id watcher }
  | .addWatchee id watchee => { r with watchees := r.watchees.add id watchee }
  | .removeWatchee id watchee => { r with watchees := r.watchees.remove id watchee }
  | .dropPID id => ⟨r.watchers.dropPID id, r.watchees.dropPID id⟩
  | .dropHost host => ⟨(r.watchers.dropHost host).1, (r.watchees.dropHost host).1⟩

def after (calls : List Call) : RemoteWatchRegistry := calls.foldl call ⟨.empty, .empty⟩

/-- After any calls the two indexes of a direction agree and no inner map is empty. `dropHost`
returns and removes what is registered under a host, and does nothing without a host. -/
theorem indexes_agree (calls : List Call) :
    (after calls).watchers.Agrees ∧ (after calls).watchees.Agrees :=
  ⟨(after calls).watchers.agrees, (after calls).watchees.agrees⟩

/-- An entry without a host is not returned. -/
theorem dropHost_without_host :
    ("local", (⟨"orders", "", 0, none, "checkout"⟩ : Address)) ∉ ((after [.addWatchee "local"
        ⟨"orders", "", 0, none, "checkout"⟩]).watchees.dropHost "").2 ∧
      (⟨"orders", "", 0, none, "checkout"⟩ : Address) ∈ (after [.addWatchee "local"
        ⟨"orders", "", 0, none, "checkout"⟩]).watchees.byPID.values "local" := by
  decide +kernel

/-- The registry afterwards, and the `Terminated` messages with the local actors they are
told. `running` tells which local actors are in the tree and running; a Tell to one of them
is delivered. -/
def pruneRemoteWatchesForHost (r : RemoteWatchRegistry) (running : String → Bool)
    (nodeAddress : NodeAddress) (deathTime : ℤ) :
    RemoteWatchRegistry × List (String × Terminated) :=
  let host := nodeAddress.splitHost
  let watchers := r.watchers.dropHost host
  let watchees := r.watchees.dropHost host
  (⟨watchers.1, watchees.1⟩, watchees.2.filterMap fun entry =>
    if running entry.1 then some (entry.1, ⟨entry.2, deathTime⟩) else none)

variable (r : RemoteWatchRegistry) (running : String → Bool) (node : ClusterNode) (deathTime : ℤ)

/-- The message is told exactly for what is registered under the host. -/
lemma mem_told (id : String) (terminated : Terminated) :
    (id, terminated) ∈ (r.pruneRemoteWatchesForHost running node.peersAddress deathTime).2 ↔
      running id = true ∧ terminated.terminatedAt = deathTime ∧
        terminated.actorPath.host = node.host ∧
        terminated.actorPath ∈ r.watchees.byPID.values id := by
  unfold pruneRemoteWatchesForHost
  rw [mem_filterMap]
  constructor
  · rintro ⟨⟨id', address⟩, hentry, hsome⟩
    split_ifs at hsome with hrunning
    cases hsome
    have hmem := (r.watchees.mem_entries_dropHost node.host_ne_empty id' address).mp hentry
    exact ⟨hrunning, rfl, hmem⟩
  · rintro ⟨hrunning, rfl, hhost, hmem⟩
    refine ⟨(id, terminated.actorPath), ?_, if_pos hrunning⟩
    exact (r.watchees.mem_entries_dropHost node.host_ne_empty id _).mpr ⟨hhost, hmem⟩

lemma told_nodup : (r.pruneRemoteWatchesForHost running node.peersAddress deathTime).2.Nodup := by
  unfold pruneRemoteWatchesForHost
  refine List.Nodup.filterMap (fun entry entry' pair hpair hpair' => ?_) ?_
  · split_ifs at hpair hpair'
    · have hsame := Option.some.inj (Option.mem_def.mp hpair)
      rw [← Option.some.inj (Option.mem_def.mp hpair')] at hsame
      injection hsame with hid hterminated
      injection hterminated with haddress
      exact Prod.ext hid haddress
    all_goals simp at hpair hpair'
  · exact (r.watchees.entries_dropHost node.host_ne_empty).symm ▸ Multimap.pairs_nodup _

/-- A running local watcher is told exactly once of each actor of the departed node that it
watches and of nothing else, and what is registered for other nodes stays, if and only if every
registered actor on the host of the node lives on that node. -/
theorem departed_watches_reported_iff :
    ((r.pruneRemoteWatchesForHost running node.peersAddress deathTime).2.Nodup ∧
      (∀ id terminated,
        (id, terminated) ∈ (r.pruneRemoteWatchesForHost running node.peersAddress deathTime).2 ↔
          running id = true ∧ terminated.terminatedAt = deathTime ∧
            terminated.actorPath.LivesOn node ∧
            terminated.actorPath ∈ r.watchees.byPID.values id) ∧
      ∀ id (address : Address), ¬address.LivesOn node →
        (address ∈ (r.pruneRemoteWatchesForHost running node.peersAddress
            deathTime).1.watchers.byPID.values id ↔ address ∈ r.watchers.byPID.values id) ∧
        (address ∈ (r.pruneRemoteWatchesForHost running node.peersAddress
            deathTime).1.watchees.byPID.values id ↔ address ∈ r.watchees.byPID.values id)) ↔
    ∀ id address, address ∈ r.watchers.byPID.values id ∨ address ∈ r.watchees.byPID.values id →
      address.host = node.host → address.port = node.remotingPort := by
  have hwatchers := r.watchers.mem_dropHost node.host_ne_empty
  have hwatchees := r.watchees.mem_dropHost node.host_ne_empty
  constructor
  · rintro ⟨-, -, hstays⟩ id address hmem hhost
    by_contra hport
    obtain ⟨hstays₁, hstays₂⟩ := hstays id address fun hlives => hport hlives.2
    rcases hmem with hmem | hmem
    · exact ((hwatchers id address).mp (hstays₁.mpr hmem)).2 hhost
    · exact ((hwatchees id address).mp (hstays₂.mpr hmem)).2 hhost
  · refine fun honly => ⟨told_nodup r running node deathTime, fun id terminated => ?_,
      fun id address hother => ?_⟩
    · rw [mem_told]
      constructor
      · rintro ⟨hrunning, htime, hhost, hmem⟩
        exact ⟨hrunning, htime, ⟨hhost, honly id _ (.inr hmem) hhost⟩, hmem⟩
      · rintro ⟨hrunning, htime, hlives, hmem⟩
        exact ⟨hrunning, htime, hlives.1, hmem⟩
    · refine ⟨(hwatchers id address).trans (and_iff_left_of_imp fun hmem hhost => ?_),
        (hwatchees id address).trans (and_iff_left_of_imp fun hmem hhost => ?_)⟩
      · exact hother ⟨hhost, honly id address (.inl hmem) hhost⟩
      · exact hother ⟨hhost, honly id address (.inr hmem) hhost⟩

/-- A node, and an actor on another node of its host. -/
def firstNode : ClusterNode := ⟨"10.0.0.1", 3322, 9000, by decide⟩

def onSecond : Address := ⟨"orders", "10.0.0.1", 9001, none, "checkout"⟩

def watchSecond : RemoteWatchRegistry := ⟨RemoteIndex.empty, RemoteIndex.empty.add "local" onSecond⟩

/-- When the first node leaves, the local watcher is told that an actor has terminated that
lives on the second, and its registration is dropped. -/
theorem neighbour_reported_dead :
    ¬onSecond.LivesOn firstNode ∧
      ("local", ⟨onSecond, 7⟩) ∈ (watchSecond.pruneRemoteWatchesForHost (fun _ => true)
        firstNode.peersAddress 7).2 ∧
      onSecond ∈ watchSecond.watchees.byPID.values "local" ∧
      onSecond ∉ (watchSecond.pruneRemoteWatchesForHost (fun _ => true) firstNode.peersAddress
        7).1.watchees.byPID.values "local" := by
  decide +kernel

end RemoteWatchRegistry
end GoAkt.Actor
