import GoAkt.Interleavings

/-!
# Stashing

An actor may put the message it handles into its stash, and return the oldest stashed
message, or all of them, to its mailbox. `Stash`, `Unstash` and `UnstashAll` report nothing
to the caller, so what a handler does with one message is a list of calls that the
behaviour fixes when it gets the message. Messages may arrive between any two steps, also
between two messages that one `UnstashAll` returns.

Messages are letters here: they carry the number of their arrival, and whether they were
in the stash already. The mailbox is the default one, a queue. Control messages that reach
a behaviour (`Terminated`, `PanicSignal`) have a mailbox of their own, which is emptied
first. While a request blocks the actor, messages are stashed unseen; when the last such
request completes, everything in the stash is returned.
-/
namespace GoAkt.Actor
open GoAkt.Interleavings List Option

structure Letter (μ : Type*) where
  number : ℕ
  message : μ
  unstashed : Bool

open Letter

inductive StashCall
  | stash
  | unstash
  | unstashAll
deriving DecidableEq

/-- A behaviour and which messages are control messages. `react` gives the calls made while
a message is handled. -/
structure Behaviour (β μ : Type*) where
  control : μ → Bool
  react : β → μ → β × List StashCall

/-- The mailboxes of an actor and its stash, which is missing unless it was configured.
The last three fields are logs: what was stashed, what was returned, and the messages that
were handled without being stashed. -/
structure Mailroom (β μ : Type*) where
  mode : β
  arrived : ℕ
  systemMailbox : List (Letter μ)
  mailbox : List (Letter μ)
  box : Option (List (Letter μ))
  current : Option (Letter μ × List StashCall)
  blocked : Bool
  errors : List String
  stashed : List (Letter μ)
  returned : List (Letter μ)
  handled : List (Letter μ)

namespace Mailroom
variable {β μ : Type*}

inductive Event (μ : Type*)
  | arrive (message : μ)
  | receive
  | call
  | finish
  | block (blocked : Bool)
  | release

variable (b : Behaviour β μ) (s : Mailroom β μ)

def doReceive (l : Letter μ) : Mailroom β μ :=
  if b.control l.message then { s with systemMailbox := s.systemMailbox ++ [l] }
  else { s with mailbox := s.mailbox ++ [l] }

def stash (s : Mailroom β μ) (l : Letter μ) : Mailroom β μ :=
  match s.box with
  | none => { s with errors := s.errors ++ ["actor is not setup with a stash buffer"] }
  | some box => { s with box := some (box ++ [l]), stashed := s.stashed ++ [l] }

/-- The oldest message leaves the stash. -/
def giveBack (l : Letter μ) (rest : List (Letter μ)) : Mailroom β μ :=
  doReceive b { s with box := some rest, returned := s.returned ++ [l] }
    { l with unstashed := true }

def unstash : Mailroom β μ :=
  match s.box with
  | none => { s with errors := s.errors ++ ["actor is not setup with a stash buffer"] }
  | some [] => { s with errors := s.errors ++ ["stash buffer may be closed"] }
  | some (l :: rest) => s.giveBack b l rest

/-- One round of the loop of `UnstashAll`; the flag tells that it is over. -/
def unstashAll : Mailroom β μ × Bool :=
  match s.box with
  | none => ({ s with errors := s.errors ++ ["actor is not setup with a stash buffer"] }, true)
  | some [] => (s, true)
  | some (l :: rest) => (s.giveBack b l rest, false)

/-- A message is handed to the behaviour, or stashed if a request blocks the actor. -/
def dispatchOne (l : Letter μ) : Mailroom β μ :=
  if s.blocked then s.stash l
  else
    let reaction := b.react s.mode l.message
    { s with
      mode := reaction.1
      current := some (l, reaction.2)
      handled := if .stash ∈ reaction.2 then s.handled else s.handled ++ [l] }

def step : Event μ → Option (Mailroom β μ)
  | .arrive message =>
    some { s.doReceive b ⟨s.arrived, message, false⟩ with arrived := s.arrived + 1 }
  | .receive =>
    match s.current, s.systemMailbox, s.mailbox with
    | none, l :: rest, _ => some ({ s with systemMailbox := rest }.dispatchOne b l)
    | none, [], l :: rest => some ({ s with mailbox := rest }.dispatchOne b l)
    | _, _, _ => none
  | .call =>
    match s.current with
    | some (l, .stash :: calls) => some { s.stash l with current := some (l, calls) }
    | some (l, .unstash :: calls) => some { s.unstash b with current := some (l, calls) }
    | some (l, .unstashAll :: calls) =>
      let round := s.unstashAll b
      some (if round.2 then { round.1 with current := some (l, calls) } else round.1)
    | _ => none
  | .finish =>
    match s.current with
    | some (_, []) => some { s with current := none }
    | _ => none
  -- a blocking request makes sure that there is a stash
  | .block blocked =>
    some { s with blocked, box := if blocked then some (s.box.getD []) else s.box }
  | .release =>
    match s.box with
    | some (l :: rest) => some (s.giveBack b l rest)
    | _ => none

def system (mode : β) (stashing : Bool) : System (Mailroom β μ) (Event μ) where
  start :=
    { mode, arrived := 0, systemMailbox := [], mailbox := [],
      box := if stashing then some [] else none, current := none, blocked := false,
      errors := [], stashed := [], returned := [], handled := [] }
  step := step b

/-- The step returns a stashed message, if there is one. -/
def returns (e : Event μ) : Prop :=
  match e, s.current with
  | .call, some (_, .unstash :: _) => True
  | .call, some (_, .unstashAll :: _) => True
  | .release, _ => True
  | _, _ => False

/-- A stashed message is returned to the mailbox while a message that was never stashed
waits there. -/
def Overtaken (e : Event μ) : Prop :=
  s.returns e ∧ ∃ l rest, s.box = some (l :: rest) ∧ b.control l.message = false ∧
    ∃ l' ∈ s.mailbox, l'.unstashed = false

/-- What was stashed has been returned, in that order, or is in the stash; and in the
mailbox the unstashed messages come first. -/
structure Orderly (s : Mailroom β μ) : Prop where
  kept : s.stashed = s.returned ++ s.box.getD []
  fronted : s.mailbox.Pairwise fun l l' => l'.unstashed = true → l.unstashed = true

variable {b : Behaviour β μ} {s s' : Mailroom β μ} {e : Event μ}

lemma fronted_concat {ls : List (Letter μ)} {l : Letter μ}
    (h : ls.Pairwise fun l l' => l'.unstashed = true → l.unstashed = true)
    (hlast : l.unstashed = true → ∀ l' ∈ ls, l'.unstashed = true) :
    (ls ++ [l]).Pairwise fun l l' => l'.unstashed = true → l.unstashed = true := by
  refine pairwise_append.mpr ⟨h, pairwise_singleton _ _, fun l' hl' l'' hl'' hun => ?_⟩
  rw [mem_singleton.mp hl''] at hun
  exact hlast hun l' hl'

namespace Orderly
variable {l : Letter μ}

lemma doReceive (h : s.Orderly) (hlast : b.control l.message = false → l.unstashed = true →
      ∀ l' ∈ s.mailbox, l'.unstashed = true) : (s.doReceive b l).Orderly := by
  unfold Mailroom.doReceive
  split_ifs with hcontrol
  · exact ⟨h.kept, h.fronted⟩
  · exact ⟨h.kept, fronted_concat h.fronted (hlast (Bool.not_eq_true _ |>.mp hcontrol))⟩

lemma stash (h : s.Orderly) (l : Letter μ) : (s.stash l).Orderly := by
  unfold Mailroom.stash
  split
  · exact ⟨h.kept, h.fronted⟩
  next box hbox =>
    refine ⟨?_, h.fronted⟩
    have hkept := h.kept
    rw [hbox, getD_some] at hkept
    dsimp only [getD_some]
    rw [hkept, append_assoc]

lemma giveBack (h : s.Orderly) {rest : List (Letter μ)} (hbox : s.box = some (l :: rest))
    (hclear : b.control l.message = false → ∀ l' ∈ s.mailbox, l'.unstashed = true) :
    (s.giveBack b l rest).Orderly := by
  have hmoved : Orderly { s with box := some rest, returned := s.returned ++ [l] } := by
    refine ⟨?_, h.fronted⟩
    have hkept := h.kept
    rw [hbox, getD_some] at hkept
    dsimp only [getD_some]
    rw [hkept, append_assoc, singleton_append]
  exact hmoved.doReceive fun hcontrol _ => hclear hcontrol

/-- A returned message finds no other than unstashed ones in the mailbox. -/
lemma clear (hclear : ¬Overtaken b s e) (hreturns : s.returns e)
    {rest : List (Letter μ)} (hbox : s.box = some (l :: rest))
    (hcontrol : b.control l.message = false) : ∀ l' ∈ s.mailbox, l'.unstashed = true := by
  intro l' hl'
  by_contra hwaits
  exact hclear ⟨hreturns, l, rest, hbox, hcontrol, l', hl', Bool.not_eq_true _ |>.mp hwaits⟩

lemma unstash (h : s.Orderly) (hclear : ¬Overtaken b s e) (hreturns : s.returns e) :
    (s.unstash b).Orderly := by
  unfold Mailroom.unstash
  split
  · exact ⟨h.kept, h.fronted⟩
  · exact ⟨h.kept, h.fronted⟩
  next l rest hbox => exact h.giveBack hbox (clear hclear hreturns hbox)

lemma unstashAll (h : s.Orderly) (hclear : ¬Overtaken b s e) (hreturns : s.returns e) :
    (s.unstashAll b).1.Orderly := by
  unfold Mailroom.unstashAll
  split
  · exact ⟨h.kept, h.fronted⟩
  · exact h
  next l rest hbox => exact h.giveBack hbox (clear hclear hreturns hbox)

lemma dispatchOne (h : s.Orderly) (l : Letter μ) : (s.dispatchOne b l).Orderly := by
  unfold Mailroom.dispatchOne
  split_ifs
  · exact h.stash l
  · exact ⟨h.kept, h.fronted⟩

lemma step (h : s.Orderly) (hclear : ¬Overtaken b s e) (hstep : Mailroom.step b s e = some s') :
    s'.Orderly := by
  cases e with dsimp only [step] at hstep
  | arrive message =>
    cases hstep
    have harrived := h.doReceive (b := b) (l := ⟨s.arrived, message, false⟩)
      nofun
    exact ⟨harrived.kept, harrived.fronted⟩
  | receive =>
    split at hstep <;> cases hstep
    next l rest _ _ =>
      exact dispatchOne (s := { s with systemMailbox := rest }) ⟨h.kept, h.fronted⟩ l
    next l rest _ _ hmailbox =>
      have hfronted := h.fronted
      rw [hmailbox] at hfronted
      exact dispatchOne (s := { s with mailbox := rest }) ⟨h.kept, hfronted.of_cons⟩ l
  | call =>
    split at hstep <;> cases hstep
    next l calls _ => exact ⟨(h.stash l).kept, (h.stash l).fronted⟩
    next l calls hcurrent =>
      have hreturns : s.returns (.call : Event μ) := by
        unfold returns
        rw [hcurrent]
        trivial
      have hunstashed := h.unstash hclear hreturns
      exact ⟨hunstashed.kept, hunstashed.fronted⟩
    next l calls hcurrent =>
      have hreturns : s.returns (.call : Event μ) := by
        unfold returns
        rw [hcurrent]
        trivial
      have hround := h.unstashAll hclear hreturns
      split_ifs
      · exact ⟨hround.kept, hround.fronted⟩
      · exact hround
  | finish =>
    split at hstep <;> cases hstep
    · exact ⟨h.kept, h.fronted⟩
  | block blocked =>
    cases hstep
    refine ⟨?_, h.fronted⟩
    dsimp only
    split_ifs
    · exact h.kept
    · exact h.kept
  | release =>
    split at hstep <;> cases hstep
    next l rest hbox => exact h.giveBack hbox (clear hclear trivial hbox)

end Orderly

lemma Orderly.run {mode : β} {stashing : Bool} {events : List (Event μ)}
    (hclear : ¬(system b mode stashing).Took (Overtaken b) events)
    (hrun : (system b mode stashing).run events = some s) : s.Orderly :=
  System.safe_invariant ⟨by cases stashing <;> rfl, List.Pairwise.nil⟩
    (fun _ _ _ h hstep hclear => h.step hclear hstep) hclear hrun

/-- Everything is stashed until a signal comes, and returned then. -/
def deferring (control isSignal : μ → Bool) : Behaviour Bool μ where
  control := control
  react opened message :=
    if opened then (true, [])
    else if isSignal message then (true, [.unstashAll])
    else (false, [.stash])

/-- How far an actor with such a behaviour has come: it waits for the signal, it returns
what it has stashed, or it is open. -/
inductive Phase (s : Mailroom Bool μ) : Prop
  | waiting (box pending : List (Letter μ)) (hmode : s.mode = false) (hbox : s.box = some box)
      (hcurrent : (s.current = none ∧ pending = []) ∨
        (∃ l, s.current = some (l, [.stash]) ∧ pending = [l]) ∨
        ∃ l, s.current = some (l, []) ∧ pending = [])
      (hhandled : s.handled = []) (hordinary : ∀ l ∈ s.mailbox, l.unstashed = false)
      (horder : (box ++ pending ++ s.mailbox).map Letter.number = List.range s.arrived)
  | returning (signal : Letter μ) (box front back : List (Letter μ)) (hmode : s.mode = true)
      (hbox : s.box = some box) (hcurrent : s.current = some (signal, [.unstashAll]))
      (hhandled : s.handled = [signal]) (hmailbox : s.mailbox = front ++ back)
      (hback : ∀ l ∈ back, l.unstashed = false)
      (horder : (front ++ box ++ signal :: back).map Letter.number = List.range s.arrived)
  | opened (signal : Letter μ) (others : List (Letter μ)) (hmode : s.mode = true)
      (hbox : s.box = some []) (hcurrent : s.current = none ∨ ∃ l, s.current = some (l, []))
      (hhandled : s.handled = signal :: others)
      (horder : (others ++ s.mailbox).map Letter.number =
        (List.range s.arrived).erase signal.number)
      (harrived : signal.number < s.arrived)

/-- No request blocks the actor, and no control message has arrived. -/
structure Deferred (control : μ → Bool) (s : Mailroom Bool μ) : Prop where
  quiet : s.systemMailbox = []
  free : s.blocked = false
  plain : ∀ box, s.box = some box → ∀ l ∈ box ++ s.mailbox, control l.message = false
  current : ∀ l calls, s.current = some (l, calls) → control l.message = false
  phase : Phase s

namespace Deferred
variable {control isSignal : μ → Bool} {s s' : Mailroom Bool μ} (h : Deferred control s)
include h

lemma arrive {message : μ} (hmessage : control message = false)
    (hstep : Mailroom.step (deferring control isSignal) s (.arrive message) = some s') :
    Deferred control s' := by
  have hs' : s' = { s with
      mailbox := s.mailbox ++ [⟨s.arrived, message, false⟩], arrived := s.arrived + 1 } := by
    cases hstep
    simp only [doReceive, deferring, hmessage, Bool.false_eq_true, if_false]
  subst hs'
  refine ⟨h.quiet, h.free, fun box hbox l hl => ?_, h.current, ?_⟩
  · rw [← append_assoc] at hl
    rcases mem_append.mp hl with hold | hnew
    · exact h.plain box hbox l hold
    · rw [mem_singleton.mp hnew]
      exact hmessage
  · cases h.phase with
    | waiting box pending hmode hbox hcurrent hhandled hordinary horder =>
      refine .waiting box pending hmode hbox hcurrent hhandled (fun l hl => ?_) ?_
      · rcases mem_append.mp hl with hold | hnew
        · exact hordinary l hold
        · rw [mem_singleton.mp hnew]
      · rw [← append_assoc, map_append, horder, range_succ]
        rfl
    | returning signal box front back hmode hbox hcurrent hhandled hmailbox hback horder =>
      refine .returning signal box front (back ++ [⟨s.arrived, message, false⟩]) hmode hbox
        hcurrent hhandled ?_ (fun l hl => ?_) ?_
      · dsimp only
        rw [hmailbox, append_assoc]
      · rcases mem_append.mp hl with hold | hnew
        · exact hback l hold
        · rw [mem_singleton.mp hnew]
      · rw [← cons_append, ← append_assoc, map_append, horder, range_succ]
        rfl
    | opened signal others hmode hbox hcurrent hhandled horder harrived =>
      refine .opened signal others hmode hbox hcurrent hhandled ?_ (Nat.lt_succ_of_lt harrived)
      rw [← append_assoc, map_append, horder, range_succ,
        erase_append_left _ (mem_range.mpr harrived)]
      rfl

lemma receive
    (hstep : Mailroom.step (deferring control isSignal) s .receive = some s') :
    Deferred control s' := by
  dsimp only [step] at hstep
  rw [h.quiet] at hstep
  split at hstep <;> try cases hstep
  · next heq => cases heq
  · next l rest hidle _ hmailbox =>
    have hplain : ∀ box, s.box = some box → ∀ l' ∈ box ++ rest, control l'.message = false := by
      intro box hbox l' hl'
      refine h.plain box hbox l' ?_
      rw [hmailbox]
      rcases mem_append.mp hl' with hin | hin
      · exact mem_append_left _ hin
      · exact mem_append_right _ (mem_cons_of_mem l hin)
    have hl : control l.message = false := by
      cases h.phase with
      | waiting box _ _ hbox | returning _ box _ _ _ hbox =>
        exact h.plain box hbox l (mem_append_right _ (hmailbox ▸ mem_cons_self))
      | opened _ _ _ hbox => exact h.plain [] hbox l (mem_append_right _ (hmailbox ▸ mem_cons_self))
    have hcurrent : ∀ (calls : List StashCall) l' calls', some (l, calls) = some (l', calls') →
        control l'.message = false := by
      intro calls l' calls' heq
      cases heq
      exact hl
    cases hphase : h.phase with
    | waiting box pending hmode hbox hpending hhandled hordinary horder =>
      have hnone : pending = [] := by
        rcases hpending with ⟨-, hnil⟩ | ⟨l', hsome, -⟩ | ⟨l', hsome, -⟩
        · exact hnil
        · exact nomatch hidle.symm.trans hsome
        · exact nomatch hidle.symm.trans hsome
      rw [hnone, append_nil, hmailbox] at horder
      rw [hmailbox] at hordinary
      simp only [dispatchOne, h.free, deferring, hmode, Bool.false_eq_true, if_false]
      by_cases hsignal : isSignal l.message = true
      · simp only [hsignal, if_true, mem_singleton, reduceCtorEq, if_false]
        refine ⟨rfl, rfl, hplain, hcurrent _, .returning l box [] rest rfl hbox rfl ?_ rfl
          (fun l' hl' => hordinary l' (mem_cons_of_mem l hl')) horder⟩
        rw [hhandled]
        rfl
      · simp only [hsignal, Bool.false_eq_true, if_false, mem_singleton, if_true]
        refine ⟨rfl, rfl, hplain, hcurrent _, .waiting box [l] rfl hbox
          (.inr (.inl ⟨l, rfl, rfl⟩)) hhandled
          (fun l' hl' => hordinary l' (mem_cons_of_mem l hl')) ?_⟩
        rw [append_assoc]
        exact horder
    | returning signal box front back hmode hbox hsome => exact nomatch hidle.symm.trans hsome
    | opened signal others hmode hbox hsome hhandled horder harrived =>
      simp only [dispatchOne, h.free, deferring, hmode, Bool.false_eq_true, if_false, if_true,
        not_mem_nil]
      refine ⟨rfl, rfl, hplain, hcurrent _, .opened signal (others ++ [l]) rfl hbox
        (.inr ⟨l, rfl⟩) ?_ ?_ harrived⟩
      · rw [hhandled]
        rfl
      · rw [append_assoc]
        rw [hmailbox] at horder
        exact horder

lemma call (hclear : ¬Overtaken (deferring control isSignal) s .call)
    (hstep : Mailroom.step (deferring control isSignal) s .call = some s') :
    Deferred control s' := by
  have hlook := h.current
  cases h.phase with
  | waiting box pending hmode hbox hpending hhandled hordinary horder =>
    rcases hpending with ⟨hnone, -⟩ | ⟨l, hsome, rfl⟩ | ⟨l, hsome, -⟩
    · simp [step, hnone] at hstep
    · simp only [step, hsome, stash, hbox, Option.some.injEq] at hstep
      subst hstep
      refine ⟨h.quiet, h.free, fun box' hbox' l' hl' => ?_, fun l' calls heq => ?_,
        .waiting (box ++ [l]) [] hmode rfl (.inr (.inr ⟨l, rfl, rfl⟩)) hhandled hordinary ?_⟩
      · cases hbox'
        rw [append_assoc, singleton_append] at hl'
        rcases mem_append.mp hl' with hin | hin
        · exact h.plain box hbox l' (mem_append_left _ hin)
        · rcases mem_cons.mp hin with rfl | hin
          · exact hlook l' _ hsome
          · exact h.plain box hbox l' (mem_append_right _ hin)
      · cases heq
        exact hlook l _ hsome
      · rw [append_nil]
        exact horder
    · simp [step, hsome] at hstep
  | returning signal box front back hmode hbox hcurrent hhandled hmailbox hback horder =>
    have hreturns : s.returns (.call : Event μ) := by
      unfold returns
      rw [hcurrent]
      trivial
    cases box with
    | nil =>
      simp only [step, hcurrent, unstashAll, hbox, if_true, Option.some.injEq] at hstep
      subst hstep
      have hsignal : signal.number ∈ List.range s.arrived := by
        rw [← horder]
        simp
      refine ⟨h.quiet, h.free, fun box hbox' => h.plain box (hbox.trans hbox'),
        fun l calls heq => ?_, .opened signal [] hmode rfl (.inr ⟨signal, rfl⟩) hhandled ?_
          (mem_range.mp hsignal)⟩
      · cases heq
        exact hlook signal _ hcurrent
      · rw [append_nil, map_append, map_cons] at horder
        have hnodup : (List.range s.arrived).Nodup := nodup_range
        rw [← horder] at hnodup
        have hfresh : signal.number ∉ front.map number := fun hin =>
          (nodup_append.mp hnodup).2.2 _ hin _ mem_cons_self rfl
        dsimp only
        rw [← horder, erase_append_right _ hfresh, erase_cons_head, nil_append,
          hmailbox, map_append]
    | cons l rest =>
      have hplain := h.plain (l :: rest) hbox
      have hl : control l.message = false := hplain l mem_cons_self
      have hnone : back = [] := by
        refine eq_nil_iff_forall_not_mem.mpr fun l' hl' => ?_
        have hun := Orderly.clear hclear hreturns hbox hl l' (hmailbox ▸ mem_append_right front hl')
        rw [hback l' hl'] at hun
        cases hun
      subst hnone
      simp only [step, hcurrent, unstashAll, hbox, giveBack,
        doReceive, deferring, hl, Bool.false_eq_true, if_false, Option.some.injEq] at hstep
      subst hstep
      refine ⟨h.quiet, h.free, fun box' hbox' l' hl' => ?_, fun l' calls heq => ?_,
        .returning signal rest (front ++ [{ l with unstashed := true }]) [] hmode rfl rfl
          hhandled ?_ hback ?_⟩
      · cases hbox'
        rw [← append_assoc] at hl'
        rcases mem_append.mp hl' with hin | hin
        · exact hplain l' (mem_cons_of_mem l hin)
        · rw [mem_singleton.mp hin]
          exact hl
      · cases heq
        exact hlook signal _ hcurrent
      · rw [hmailbox, append_nil, append_nil]
      · simpa using horder
  | opened signal others hmode hbox hcurrent =>
    rcases hcurrent with hnone | ⟨l, hsome⟩
    · simp [step, hnone] at hstep
    · simp [step, hsome] at hstep

lemma finish (hstep : Mailroom.step (deferring control isSignal) s .finish = some s') :
    Deferred control s' := by
  have hnone : s' = { s with current := none } ∧ ∃ l, s.current = some (l, []) := by
    dsimp only [step] at hstep
    split at hstep <;> cases hstep
    · next l hcurrent =>
      exact ⟨rfl, l, hcurrent⟩
  obtain ⟨rfl, l, hcurrent⟩ := hnone
  refine ⟨h.quiet, h.free, h.plain, nofun, ?_⟩
  cases h.phase with
  | waiting box pending hmode hbox hpending hhandled hordinary horder =>
    have hnil : pending = [] := by
      rcases hpending with ⟨-, hnil⟩ | ⟨l', hsome, -⟩ | ⟨l', -, hnil⟩
      · exact hnil
      · exact nomatch hcurrent.symm.trans hsome
      · exact hnil
    exact .waiting box pending hmode hbox (.inl ⟨rfl, hnil⟩) hhandled hordinary horder
  | returning signal box front back hmode hbox hsome => exact nomatch hcurrent.symm.trans hsome
  | opened signal others hmode hbox _ hhandled horder harrived =>
    exact .opened signal others hmode hbox (.inl rfl) hhandled horder harrived

end Deferred

lemma Deferred.run {control isSignal : μ → Bool} {events : List (Event μ)}
    {s : Mailroom Bool μ} (hcontrol : ∀ message, .arrive message ∈ events → control message = false)
    (hplain : ∀ e ∈ events, e ≠ .release ∧ ∀ blocked, e ≠ .block blocked)
    (hclear : ¬(system (deferring control isSignal) false true).Took
      (Overtaken (deferring control isSignal)) events)
    (hrun : (system (deferring control isSignal) false true).run events = some s) :
    Deferred control s := by
  refine System.run_induction (P := fun events s =>
    (∀ message, .arrive message ∈ events → control message = false) →
    (∀ e ∈ events, e ≠ .release ∧ ∀ blocked, e ≠ .block blocked) →
    ¬(system (deferring control isSignal) false true).Took
      (Overtaken (deferring control isSignal)) events → Deferred control s)
    (fun _ _ _ => ?_) ?_ hrun hcontrol hplain hclear
  · refine ⟨rfl, rfl, fun box hbox l hl => ?_, nofun,
      .waiting [] [] rfl rfl (.inl ⟨rfl, rfl⟩) rfl nofun rfl⟩
    cases hbox
    exact nomatch hl
  · intro events s e s' hrun ih hstep hcontrol hplain hclear
    rw [System.took_concat hrun, not_or] at hclear
    change step (deferring control isSignal) s e = some s' at hstep
    have hlast : e ∈ events ++ [e] := mem_concat_self
    have h := ih (fun message hmem => hcontrol message (mem_append_left _ hmem))
      (fun e' he' => hplain e' (mem_append_left _ he')) hclear.1
    cases e with
    | arrive message => exact h.arrive (hcontrol message hlast) hstep
    | receive => exact h.receive hstep
    | call => exact h.call hclear.2 hstep
    | finish => exact h.finish hstep
    | block blocked => exact ((hplain _ hlast).2 blocked rfl).elim
    | release => exact ((hplain _ hlast).1 rfl).elim

/-- The others are handled in the order of their arrival, and all of them when nothing is
left to do. -/
lemma Phase.in_order {s : Mailroom Bool μ} (h : Phase s) :
    (s.handled.tail.map Letter.number).Pairwise (· < ·) ∧
    (s.current = none → s.mailbox = [] → s.box = some [] →
      (s.handled.map Letter.number).Perm (List.range s.arrived)) := by
  cases h with rw [hhandled]
  | waiting box pending hmode hbox hcurrent hhandled hordinary horder =>
    refine ⟨List.Pairwise.nil, fun hidle hempty hnothing => ?_⟩
    cases hbox.symm.trans hnothing
    rcases hcurrent with ⟨-, rfl⟩ | ⟨l, hsome, -⟩ | ⟨l, hsome, -⟩
    · rw [hempty] at horder
      rw [← horder]
      rfl
    · exact nomatch hidle.symm.trans hsome
    · exact nomatch hidle.symm.trans hsome
  | returning signal box front back hmode hbox hcurrent hhandled =>
    exact ⟨List.Pairwise.nil, fun hidle => nomatch hidle.symm.trans hcurrent⟩
  | opened signal others hmode hbox hcurrent hhandled horder harrived =>
    have hsorted : ((List.range s.arrived).erase signal.number).Pairwise (· < ·) :=
      pairwise_lt_range.sublist erase_sublist
    rw [← horder, map_append] at hsorted
    refine ⟨(pairwise_append.mp hsorted).1, fun _ hempty _ => ?_⟩
    rw [hempty, append_nil] at horder
    rw [map_cons, horder]
    exact (perm_cons_erase (mem_range.mpr harrived)).symm

/-- If a stashed message is only returned when no other than unstashed messages wait, the
unstashed messages stand first in the mailbox. They leave the stash in the order in which
they were stashed, each once, and when `UnstashAll` returns all of them have left. A
behaviour that stashes everything until a signal handles all others in the order of their
arrival, as long as no control message comes. -/
theorem stashing_preserves_order :
    (∀ (b : Behaviour β μ) mode stashing events s,
      ¬(system b mode stashing).Took (Overtaken b) events →
      (system b mode stashing).run events = some s →
        (s.mailbox.Pairwise fun l l' => l'.unstashed = true → l.unstashed = true) ∧
        s.stashed = s.returned ++ s.box.getD [] ∧
        ∀ l calls s', s.current = some (l, .unstashAll :: calls) → step b s .call = some s' →
          s'.current = some (l, calls) → s'.returned = s'.stashed) ∧
    ∀ (control isSignal : μ → Bool) events s,
      (∀ message, .arrive message ∈ events → control message = false) →
      (∀ e ∈ events, e ≠ .release ∧ ∀ blocked, e ≠ .block blocked) →
      ¬(system (deferring control isSignal) false true).Took
        (Overtaken (deferring control isSignal)) events →
      (system (deferring control isSignal) false true).run events = some s →
        (s.handled.tail.map Letter.number).Pairwise (· < ·) ∧
        (s.current = none → s.mailbox = [] → s.box = some [] →
          (s.handled.map Letter.number).Perm (List.range s.arrived)) := by
  constructor
  · intro b mode stashing events s hclear hrun
    have horderly := Orderly.run hclear hrun
    refine ⟨horderly.fronted, horderly.kept, fun l calls s' hcurrent hstep hover => ?_⟩
    have hkept := horderly.kept
    simp only [step, hcurrent, unstashAll, Option.some.injEq] at hstep
    cases hbox : s.box with
    | none =>
      rw [hbox] at hstep hkept
      subst hstep
      exact (hkept.trans (append_nil _)).symm
    | some box =>
      rw [hbox] at hstep hkept
      cases box with
      | nil =>
        subst hstep
        exact (hkept.trans (append_nil _)).symm
      | cons l' rest =>
        -- a round that returns a message is not the last one
        have hsame : s'.current = s.current := by
          subst hstep
          simp only [giveBack, doReceive, Bool.false_eq_true, if_false]
          split_ifs <;> rfl
        rw [hsame, hcurrent] at hover
        exact absurd (congrArg (fun c => c.2.length) (Option.some.inj hover)) (by simp)
  · intro control isSignal events s hcontrol hplain hclear hrun
    exact (Deferred.run hcontrol hplain hclear hrun).phase.in_order

/-- A test for the witness: nothing but unstashed messages waits when a call is made. -/
def nothingWaits {β : Type*} (s : Mailroom β ℕ) : Event ℕ → Bool
  | .call | .release => s.mailbox.all Letter.unstashed
  | _ => true

lemma not_overtaken_of_nothingWaits {β : Type*} (b : Behaviour β ℕ) (s : Mailroom β ℕ)
    (e : Event ℕ) (htest : s.nothingWaits e = true) : ¬Overtaken b s e := by
  rintro ⟨hreturns, l, rest, hbox, hcontrol, l', hl', hwaits⟩
  cases e with
  | call | release =>
    have hall := all_eq_true.mp htest l' hl'
    rw [hwaits] at hall
    cases hall
  | _ => exact hreturns

/-- Numbers above 4 are the signal. One message is stashed before it comes. -/
def stashOne : List (Event ℕ) :=
  [.arrive 1, .receive, .call, .finish, .arrive 5, .receive, .call, .call, .arrive 2, .finish,
    .receive, .finish, .receive, .finish]

theorem stashing_preserves_order_stashOne :
    ∃ s, (system (deferring (fun _ => false) (fun n => decide (4 < n))) false true).run stashOne =
        some s ∧ s.handled.map Letter.message = [5, 1, 2] ∧ s.stashed.length = 1 ∧
      s.stashed = s.returned ++ s.box.getD [] ∧
      (s.handled.tail.map Letter.number).Pairwise (· < ·) := by
  obtain ⟨s, hrun, hclear, hhandled, hstashed⟩ := System.exists_safe_run
    (system (deferring (fun _ => false) (fun n => decide (4 < n))) false true) stashOne
    (fun s => s.handled.map message = [5, 1, 2] ∧ s.stashed.length = 1)
    (not_overtaken_of_nothingWaits _) (by decide +kernel)
  obtain ⟨hgeneral, hdeferring⟩ := stashing_preserves_order (β := Bool) (μ := ℕ)
  exact ⟨s, hrun, hhandled, hstashed, (hgeneral _ _ _ _ s hclear hrun).2.1,
    (hdeferring _ _ _ s (fun _ _ => rfl) (by simp [stashOne]) hclear hrun).1⟩

/-- A message that waits behind the signal is handled before the one that was stashed
first. A control message overtakes one that arrived before it. -/
theorem unstashed_message_comes_last :
    (∃ s, (system (deferring (fun _ => false) (fun n => decide (4 < n))) false true).run
        [.arrive 1, .arrive 5, .arrive 2, .receive, .call, .finish, .receive, .call, .call] =
          some s ∧ s.mailbox.map (fun l => (l.message, l.unstashed)) = [(2, false), (1, true)]) ∧
    (∃ s, (system (deferring (fun _ => false) (fun n => decide (4 < n))) false true).run
        [.arrive 1, .arrive 5, .arrive 2, .receive, .call, .finish, .receive, .call, .call,
          .finish, .receive, .finish, .receive, .finish] = some s ∧
      s.handled.map (fun l => (l.message, l.number)) = [(5, 1), (2, 2), (1, 0)]) ∧
    ∃ s, (system (deferring (fun n => decide (n = 3)) (fun n => decide (4 < n))) false true).run
        [.arrive 5, .receive, .call, .finish, .arrive 1, .arrive 3, .receive, .finish, .receive] =
          some s ∧ s.handled.map (fun l => (l.message, l.number)) = [(5, 0), (3, 2), (1, 1)] := by
  exact ⟨⟨_, rfl, by decide⟩, ⟨_, rfl, by decide⟩, ⟨_, rfl, by decide⟩⟩

end Mailroom
end GoAkt.Actor
