import Mathlib.Tactic

/-!
# Switching behaviours

An actor keeps its behaviours on a stack and handles a message with the one on top. The stack is
compared with the model that the operations document: a stacking over the actor's `Receive`, which
`Become` replaces, `BecomeStacked` and `UnBecomeStacked` push to and pop from, and `UnBecome`
clears.
-/
namespace GoAkt.Actor
open List
variable {β : Type*}

/-- The calls of an actor that switch its behaviour. -/
inductive Switch (β : Type*)
  | become (behavior : β)
  | becomeStacked (behavior : β)
  | unBecomeStacked
  | unBecome

/-- The nodes of the stack, from the top. -/
structure BehaviorStack (β : Type*) where
  nodes : List β

namespace BehaviorStack
variable (s : BehaviorStack β)

def peek : Option β := s.nodes.head?

def push (behavior : β) : BehaviorStack β := ⟨behavior :: s.nodes⟩

def pop : BehaviorStack β := ⟨s.nodes.tail⟩

def reset (_ : BehaviorStack β) : BehaviorStack β := ⟨[]⟩

def setBehavior (behavior : β) : BehaviorStack β := s.reset.push behavior

/-- The actor's `Receive` is pushed. What is on the stack stays there. -/
def resetBehavior (receive : β) (s : BehaviorStack β) : BehaviorStack β := s.push receive

def setBehaviorStacked (behavior : β) : BehaviorStack β := s.push behavior

def unsetBehaviorStacked : BehaviorStack β := s.pop

def switch (receive : β) (s : BehaviorStack β) : Switch β → BehaviorStack β
  | .become behavior => s.setBehavior behavior
  | .becomeStacked behavior => s.setBehaviorStacked behavior
  | .unBecomeStacked => s.unsetBehaviorStacked
  | .unBecome => s.resetBehavior receive

/-- The stack of an actor that has made these calls since it was started. -/
def after (receive : β) (calls : List (Switch β)) : BehaviorStack β :=
  calls.foldl (switch receive) (push ⟨[]⟩ receive)

/-- The behaviour that handles the next message. The message is dropped if there is none. -/
def handleReceived : Option β := s.peek

end BehaviorStack

open BehaviorStack

/-- The documented model: what is stacked over the actor's `Receive`. -/
structure Stacking (β : Type*) where
  stacked : List β

namespace Stacking

def switch (m : Stacking β) : Switch β → Stacking β
  | .become behavior => ⟨[behavior]⟩
  | .becomeStacked behavior => ⟨behavior :: m.stacked⟩
  | .unBecomeStacked => ⟨m.stacked.tail⟩
  | .unBecome => ⟨[]⟩

def after (calls : List (Switch β)) : Stacking β := calls.foldl switch ⟨[]⟩

def current (receive : β) (m : Stacking β) : β := m.stacked.headD receive

end Stacking

/-- Each `UnBecomeStacked` undoes a `BecomeStacked` of the same stretch between calls of `Become`
and `UnBecome`. The number counts the behaviours of the stretch that are not undone. -/
def undoes : ℕ → List (Switch β) → Bool
  | _, [] => true
  | _, .become _ :: calls => undoes 0 calls
  | k, .becomeStacked _ :: calls => undoes (k + 1) calls
  | 0, .unBecomeStacked :: _ => false
  | k + 1, .unBecomeStacked :: calls => undoes k calls
  | _, .unBecome :: calls => undoes 0 calls

/-- Stack and model agree on the top `k + 1` behaviours, which are those of the stretch and the
one it began with. -/
structure Agrees (receive : β) (k : ℕ) (s : BehaviorStack β) (m : Stacking β) : Prop where
  height : k < s.nodes.length
  take_eq : s.nodes.take (k + 1) = (m.stacked ++ [receive]).take (k + 1)

namespace Agrees
variable {receive : β} {k : ℕ} {s : BehaviorStack β} {m : Stacking β}

lemma handleReceived_eq (h : Agrees receive k s m) :
    s.handleReceived = some (m.current receive) := by
  have hhead : s.nodes.head? = (m.stacked ++ [receive]).head? := by
    have := congrArg head? h.take_eq
    simpa only [head?_take, Nat.add_eq_zero_iff, one_ne_zero, and_false, if_false] using this
  rw [handleReceived, peek, hhead, Stacking.current]
  cases m.stacked with
  | nil => rfl
  | cons b bs => rfl

lemma push (h : Agrees receive k s m) (behavior : β) :
    Agrees receive (k + 1) (s.push behavior) ⟨behavior :: m.stacked⟩ where
  height := Nat.succ_lt_succ h.height
  take_eq := by
    rw [BehaviorStack.push, take_succ_cons, cons_append, take_succ_cons, h.take_eq]

/-- The behaviour that is popped was stacked, so another one is below it. -/
lemma pop (h : Agrees receive (k + 1) s m) : Agrees receive k s.pop ⟨m.stacked.tail⟩ where
  height := by
    have := h.height
    simp only [BehaviorStack.pop, length_tail]
    omega
  take_eq := by
    have heq := h.take_eq
    have hheight := h.height
    obtain ⟨a, nodes, hs⟩ := exists_cons_of_length_pos (Nat.zero_lt_of_lt hheight)
    rw [hs] at heq hheight
    cases hm : m.stacked with
    | nil =>
      -- the stack is at least two high and would agree with `[receive]` on two behaviours
      have hlen := congrArg length heq
      simp only [hm, length_take, nil_append, length_singleton] at hlen
      omega
    | cons b bs =>
      rw [hm, cons_append, take_succ_cons, take_succ_cons] at heq
      rw [BehaviorStack.pop, hs]
      exact (cons.inj heq).2

lemma run (h : Agrees receive k s m) (calls : List (Switch β)) (hundoes : undoes k calls = true) :
    ∃ k', Agrees receive k' (calls.foldl (BehaviorStack.switch receive) s)
      (calls.foldl Stacking.switch m) := by
  induction calls generalizing k s m with
  | nil => exact ⟨k, h⟩
  | cons call calls ih =>
    cases call with
    | become behavior => exact ih ⟨Nat.zero_lt_one, rfl⟩ hundoes
    | becomeStacked behavior => exact ih (h.push behavior) hundoes
    | unBecomeStacked =>
      cases k with
      | zero => cases hundoes
      | succ k => exact ih h.pop hundoes
    | unBecome => exact ih ⟨Nat.succ_pos _, rfl⟩ hundoes

end Agrees

/-- If every `UnBecomeStacked` undoes a `BecomeStacked` made since the last `Become` or `UnBecome`,
the next message is handled by the behaviour that the model gives. -/
theorem handleReceived_eq_model (receive : β) (calls : List (Switch β))
    (hundoes : undoes 0 calls = true) :
    (BehaviorStack.after receive calls).handleReceived =
      some ((Stacking.after calls).current receive) := by
  have hstart : Agrees receive 0 (push ⟨[]⟩ receive) ⟨[]⟩ := ⟨Nat.zero_lt_one, rfl⟩
  obtain ⟨k, h⟩ := hstart.run calls hundoes
  exact h.handleReceived_eq

/-- A behaviour is stacked and undone after a `Become`. -/
theorem handleReceived_eq_model_undone :
    (BehaviorStack.after 0 [.become 1, .becomeStacked 2, .unBecomeStacked]).handleReceived =
      some 1 :=
  handleReceived_eq_model 0 _ rfl

/-- With nothing stacked, `UnBecomeStacked` takes the actor's `Receive` away and the next message is
dropped. After `UnBecome` it brings back what should have been discarded. -/
theorem unBecomeStacked_pops_receive :
    (BehaviorStack.after 0 [.unBecomeStacked]).handleReceived = none ∧
      (Stacking.after [.unBecomeStacked]).current 0 = 0 ∧
      (BehaviorStack.after 0 [.becomeStacked 1, .unBecome, .unBecomeStacked]).handleReceived =
        some 1 ∧
      (Stacking.after [.becomeStacked 1, .unBecome, .unBecomeStacked]).current 0 = 0 :=
  ⟨rfl, rfl, rfl, rfl⟩

end GoAkt.Actor
