import GoAkt.FiniteMaps
import GoAkt.Forests

/-!
# The tree of actors

An actor system keeps one tree of its actors. Nodes are objects that refer to each
other, so they live in a heap under references here: a node object can outlive its
registration, be reused, or be reached through two indexes. Go's `nil` is `none`;
assigning to a `nil` map panics, deleting from one does nothing. A call that panics, or
a traversal that never ends, gives `none`.

`strings.EqualFold` is a parameter: nothing below depends on how it folds letters. The
`NoSender` of a PID's actor system is passed to the calls that ask for it.
-/
namespace GoAkt.Actor
open GoAkt.FiniteMaps GoAkt.Forests

abbrev Ref := ℕ

/-- A PID object: its address as a string, the name in that address, which is never
empty, and a number that tells objects with equal addresses apart. -/
structure PID where
  id : String
  name : String
  serial : ℕ
  named : name ≠ ""
deriving DecidableEq

def PID.equals (equalFold : String → String → Bool) (pid : PID) : Option PID → Bool
  | none => false
  | some other => equalFold pid.id other.id

/-- The two halves of a watch relation, as seen from one node. -/
inductive Side
  | watchers
  | watchees
deriving DecidableEq

def Side.opposite : Side → Side
  | .watchers => .watchees
  | .watchees => .watchers

structure PidNode where
  pid : Option PID
  parentNode : Option Ref
  id : String
  name : String
  watchers : Option (Map String PID)
  watchees : Option (Map String PID)
  descendants : Map String Ref

namespace PidNode

def newPidNode (pid : Option PID) : PidNode where
  pid := pid
  parentNode := none
  id := pid.elim "" PID.id
  name := pid.elim "" PID.name
  watchers := some ∅
  watchees := some ∅
  descendants := ∅

variable (n : PidNode) (side : Side) (id : String)

def links : Side → Option (Map String PID)
  | .watchers => n.watchers
  | .watchees => n.watchees

def setLinks (links : Option (Map String PID)) : Side → PidNode
  | .watchers => { n with watchers := links }
  | .watchees => { n with watchees := links }

/-- What one side of the node's watch relation holds under an ID. -/
def linkOf : Option PID := (n.links side).bind (·.lookup id)

/-- The IDs that one side of the node's watch relation mentions. -/
def linked : List String := (n.links side).elim [] (·.keys)

/-- Deleting from a `nil` map does nothing. -/
def unlink : PidNode := n.setLinks ((n.links side).map (·.erase id)) side

def setPid (pid : PID) : PidNode :=
  { n with pid := some pid, id := pid.id, name := pid.name }

def setParent (parent : Option Ref) : PidNode := { n with parentNode := parent }

def addDescendant (child : Ref) : PidNode :=
  { n with descendants := n.descendants.insert id child }

def dropDescendant : PidNode :=
  { n with descendants := n.descendants.erase id }

def clearPid : PidNode := { n with pid := none, parentNode := none }

end PidNode

/-- `pids` and `names` index the registered nodes. -/
structure Tree where
  heap : Ref → PidNode
  next : Ref
  rootNode : Ref
  pids : Map String Ref
  names : Map String Ref
  counter : ℤ
  noSender : Option PID

/-- The order in which `range` visits the children of a node. -/
structure Ranging where
  order : List Ref → List Ref
  perm : ∀ children, (order children).Perm children

namespace Tree

def newTree : Tree where
  heap := fun _ => PidNode.newPidNode none
  next := 1
  rootNode := 0
  pids := ∅
  names := ∅
  counter := 0
  noSender := none

variable (x : Tree)

def modify (r : Ref) (f : PidNode → PidNode) : Tree :=
  { x with heap := Function.update x.heap r (f (x.heap r)) }

/-- Assigning to one of a node's watch maps panics when the map is `nil`. -/
def link (r : Ref) (side : Side) (id : String) (pid : PID) : Option Tree :=
  ((x.heap r).links side).map fun m => x.modify r fun n => n.setLinks (some (m.insert id pid)) side

def cacheNoSender (sys : Option PID) : Tree :=
  { x with noSender := x.noSender.or sys }

/-! ## Queries -/

def node (id : String) : Option Ref := x.pids.lookup id

def nodeByName (name : String) : Option Ref :=
  if name = "" then none else x.names.lookup name

def count : ℤ := x.counter

def root : Option PID := (x.heap x.rootNode).pid

section Calls
variable (equalFold : String → String → Bool) (x : Tree) (side : Side) (pid : PID)
  (sys : Option PID) (ranging : Ranging) (r : Ref)

/-- The PIDs on one side of the watch relation of a node. -/
def related : List PID :=
  if pid.equals equalFold x.noSender then []
  else (x.node pid.id).elim [] fun r =>
    ((x.heap r).links side).elim [] fun m => m.entries.map Sigma.snd

def watchers (x : Tree) (pid : PID) : List PID := x.related equalFold .watchers pid

def watchees (x : Tree) (pid : PID) : List PID := x.related equalFold .watchees pid

def children : List PID :=
  if pid.equals equalFold x.noSender then []
  else (x.node pid.id).elim [] fun r =>
    ((x.heap r).descendants.entries.map Sigma.snd).filterMap fun c => (x.heap c).pid

def parent : Option PID :=
  if pid.equals equalFold x.noSender then none
  else (x.node pid.id).bind fun r => (x.heap r).parentNode.bind fun p => (x.heap p).pid

/-! ## Calls that change the tree

`sys` is what `pid.ActorSystem().NoSender()` returns in the call. A call returns the text
of its error, if any.
-/

/-- The root node object takes the PID and is entered in both indexes and counted. -/
def registerRoot : Tree :=
  { x.modify x.rootNode (·.setPid pid) with
    pids := x.pids.insert pid.id x.rootNode
    names := x.names.insert pid.name x.rootNode
    counter := x.counter + 1 }

def addRootNode : Option PID → Tree × Option String
  | none => (x, some "pid is nil")
  | some pid =>
    let x := x.cacheNoSender sys
    if pid.equals equalFold x.noSender then (x, some "pid cannot be NoSender")
    else if (x.node pid.id).isSome then (x, some "pid already exists")
    else (x.registerRoot pid, none)

/-- A new node object under `parentNode`, entered in both indexes and counted. -/
def register (parentNode : Ref) (pid : PID) : Tree :=
  let childNode := (PidNode.newPidNode (some pid)).setParent (some parentNode)
  { Tree.modify { x with heap := Function.update x.heap x.next childNode } parentNode
      (·.addDescendant pid.id x.next) with
    next := x.next + 1
    pids := x.pids.insert pid.id x.next
    names := x.names.insert pid.name x.next
    counter := x.counter + 1 }

def addNodeLocked : (parent pid : Option PID) → Option (Tree × Option String)
  | _, none => some (x, some "pid is nil")
  | none, some _ => some (x, some "parent pid is nil")
  | some parent, some pid =>
    let x := x.cacheNoSender sys
    if parent.equals equalFold x.noSender then some (x, some "parent pid cannot be NoSender")
    else if (x.node pid.id).isSome then some (x, some "pid already exists")
    else match x.node parent.id with
      | none => some (x, some "parent pid does not exist")
      | some parentNode => do
        let childNode := x.next
        let x ← (x.register parentNode pid).link parentNode .watchees pid.id pid
        let x ← x.link childNode .watchers parent.id parent
        return (x, none)

def attachNodeLocked : (parent pid : Option PID) → Option (Tree × Option String)
  | _, none => some (x, some "pid is nil")
  | none, some _ => some (x, some "parent pid is nil")
  | some parent, some pid =>
    if parent.equals equalFold sys then some (x, some "parent pid cannot be NoSender")
    else match x.node parent.id with
      | none => some (x, some "parent pid does not exist")
      | some parentNode => match x.node pid.id with
        | none => some (x, some "pid does not exist")
        | some childNode => do
          let x := x.modify childNode (·.setParent (some parentNode))
          let x := x.modify parentNode (·.addDescendant pid.id childNode)
          let x ← x.link parentNode .watchees pid.id pid
          let x ← x.link childNode .watchers parent.id parent
          return (x, none)

def addNode (parent pid : Option PID) : Option (Tree × Option String) :=
  x.addNodeLocked equalFold sys parent pid

def addOrAttachNode : (parent pid : Option PID) → Option (Tree × Option String)
  | _, none => some (x, none)
  | none, some _ => some (x, none)
  | some parent, some pid =>
    if parent.equals equalFold sys then some (x, none)
    else if (x.node pid.id).isSome then
      x.attachNodeLocked equalFold sys (some parent) (some pid)
    else x.addNodeLocked equalFold sys (some parent) (some pid)

/-- Drops one side of a watch relation at a node that may not be registered. -/
def unlinkAt (id key : String) : Tree := (x.node id).elim x fun r => x.modify r (·.unlink side key)

def removeWatcher : (watchee watcher : Option PID) → Tree
  | some watchee, some watcher =>
    (x.unlinkAt .watchees watcher.id watchee.id).unlinkAt .watchers watchee.id watcher.id
  | _, _ => x

def removeDescendant (parentID childID : String) : Tree :=
  (x.node parentID).elim x fun r => x.modify r (·.dropDescendant childID)

def addWatcher : (pid watcher : Option PID) → Option Tree
  | some pid, some watcher =>
    let noSender := x.noSender.or sys
    if pid.equals equalFold noSender || watcher.equals equalFold noSender then some x
    else match x.node pid.id, x.node watcher.id with
      | some pidNode, some watcherNode => do
        let x ← x.link pidNode .watchers watcher.id watcher
        x.link watcherNode .watchees pid.id pid
      | _, _ => some x
  | _, _ => some x

/-! ## Deletion -/

/-- The nodes a node lists as its descendants, in the order `range` visits them. -/
def kids : List Ref := ranging.order ((x.heap r).descendants.entries.map Sigma.snd)

/-- The nodes in the order in which the stack pops them. A traversal that ends pops each
path downwards once, so it takes fewer than `2 ^ next` turns. -/
def subtree (start : Ref) : Option (List Ref) := walk (x.kids ranging) (2 ^ x.next) [start] []

/-- One side of a removed node's watch relation is dropped at each node it mentions. -/
def unlinkAll (side : Side) : Tree :=
  let id := (x.heap r).id
  (((x.heap r).linked side).foldl (fun x key => x.unlinkAt side.opposite key id) x).modify r
    (·.setLinks none side)

def unlinkParent : Tree :=
  let id := (x.heap r).id
  (x.heap r).parentNode.elim x fun parentNode =>
    x.modify parentNode fun n => (n.dropDescendant id).unlink .watchees id

/-- The entries of a removed node; the name is dropped only where it refers to the node. -/
def unregister : Tree :=
  let id := (x.heap r).id
  let name := (x.heap r).name
  { x with
    pids := x.pids.erase id
    names := if x.names.lookup name = some r then x.names.erase name else x.names
    counter := x.counter - 1 }

/-- One turn of the loop that removes the visited nodes. -/
def removeNode : Tree :=
  if (x.heap r).pid = none then x
  else
    ((((x.unlinkAll r .watchers).unlinkAll r .watchees).unlinkParent r).unregister r).modify r
      (·.clearPid)

def deleteNode : Option PID → Option Tree
  | none => some x
  | some pid =>
    if pid.equals equalFold (x.noSender.or sys) then some x
    else match x.node pid.id with
      | none => some x
      | some start => (x.subtree ranging start).map fun post => post.reverse.foldl removeNode x

/-- The root node is a new object; the cached NoSender stays. -/
def reset : Tree :=
  { x with
    heap := Function.update x.heap x.next (PidNode.newPidNode none)
    next := x.next + 1
    rootNode := x.next
    pids := ∅
    names := ∅
    counter := 0 }

end Calls
end Tree
end GoAkt.Actor
