import GoAkt.VersionVectors
import GoAkt.Joins

/-!
# Replicated data and causal dots

What the replicated types share: the interface through which the map and the
replicator use them, and the dots that name single events of a node. Values are
immutable in the source: every operation returns a new value, so `Clone` is the
identity here. Dot counters and clock components are `uint64` in the source and
count single events; they are natural numbers in the model.
-/
namespace GoAkt.Crdt
open GoAkt.VersionVectors

/-- The interface of all replicated types. `compactData` is `none` for the types
that do not implement `Compactable`. -/
class ReplicatedData (V : Type*) where
  merge : V → V → V
  delta : V → Option V
  resetDelta : V → V
  compactData : V → Option V

abbrev NodeID := String

/-- A causal event: the `counter`-th one of the node. -/
structure Dot where
  nodeID : NodeID
  counter : ℕ
  deriving DecidableEq, Repr

variable (dots : List Dot) (d : Dot) (clock : VersionVector NodeID)

def isDominated : Bool :=
  decide (d.counter ≤ count clock d.nodeID)

def containsDot (target : Dot) : Bool :=
  dots.any fun d => d.nodeID == target.nodeID && d.counter == target.counter

def appendDotUnique : List Dot :=
  if containsDot dots d then dots else dots ++ [d]

@[simp] lemma isDominated_iff :
    isDominated d clock = true ↔ d.counter ≤ count clock d.nodeID := by simp [isDominated]

@[simp] lemma containsDot_iff : containsDot dots d = true ↔ d ∈ dots := by
  simp only [containsDot, List.any_eq_true, Bool.and_eq_true, beq_iff_eq]
  constructor
  · rintro ⟨d', hd', hn, hc⟩
    have he : d' = d := by
      cases d'
      cases d
      simp_all
    exact he ▸ hd'
  · intro h
    exact ⟨d, h, rfl, rfl⟩

lemma mem_appendDotUnique (d d' : Dot) : d' ∈ appendDotUnique dots d ↔ d' ∈ dots ∨ d' = d := by
  unfold appendDotUnique
  split_ifs with h
  · have hd : d ∈ dots := (containsDot_iff dots d).mp h
    constructor
    · exact .inl
    · rintro (h | rfl)
      · exact h
      · exact hd
  · simp

/-!
## The flag and the last-writer-wins register

A flag can only be switched on. A register keeps the value with the highest
timestamp; between equal timestamps the higher node ID decides. Both replicate
their whole state when it has changed since the last reset.
-/

structure Flag where
  enabled : Bool
  dirty : Bool
  deriving DecidableEq, Repr

def newFlag : Flag := ⟨false, false⟩

namespace Flag

def enable (f : Flag) : Flag := if f.enabled then f else ⟨true, true⟩

def merge (f o : Flag) : Flag := ⟨f.enabled || o.enabled, false⟩

def delta (f : Flag) : Option Flag := if f.dirty then some f else none

def resetDelta (f : Flag) : Flag := { f with dirty := false }

instance : ReplicatedData Flag where
  merge := merge
  delta := delta
  resetDelta := resetDelta
  compactData _ := none

end Flag

/-- The timestamp counts nanoseconds. The zero value of the source holds the nil
value, which is one of the values of `β`. -/
structure LWWRegister (β : Type*) where
  value : β
  timestamp : Int64
  nodeID : NodeID
  dirty : Bool
  deriving DecidableEq, Repr

def newLWWRegister {β : Type*} (nil : β) : LWWRegister β := ⟨nil, 0, "", false⟩

namespace LWWRegister
variable {β : Type*}

def set (_ : LWWRegister β) (value : β) (timestamp : Int64) (nodeID : NodeID) : LWWRegister β :=
  ⟨value, timestamp, nodeID, true⟩

def merge (r o : LWWRegister β) : LWWRegister β :=
  if o.timestamp > r.timestamp ∨ (o.timestamp = r.timestamp ∧ o.nodeID > r.nodeID) then
    ⟨o.value, o.timestamp, o.nodeID, false⟩
  else ⟨r.value, r.timestamp, r.nodeID, false⟩

def delta (r : LWWRegister β) : Option (LWWRegister β) := if r.dirty then some r else none

def resetDelta (r : LWWRegister β) : LWWRegister β := { r with dirty := false }

instance : ReplicatedData (LWWRegister β) where
  merge := merge
  delta := delta
  resetDelta := resetDelta
  compactData _ := none

def fromState (value : β) (timestampNanos : Int64) (nodeID : NodeID) : LWWRegister β :=
  ⟨value, timestampNanos, nodeID, false⟩

end LWWRegister
end GoAkt.Crdt
