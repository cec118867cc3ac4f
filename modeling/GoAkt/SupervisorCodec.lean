import GoAkt.FiniteMaps

/-!
# Supervisors on the wire

A supervisor maps the types of errors to directives. It is encoded when its actor is spawned on
another node or relocated, and the decoder builds it again with the constructor, which puts the
default rules in.
-/
namespace GoAkt.Supervision
open GoAkt.FiniteMaps List

inductive Strategy
  | oneForOne
  | oneForAll
deriving DecidableEq

inductive Directive
  | stop
  | resume
  | restart
  | escalate
deriving DecidableEq

/-- The types of errors that have rules of their own. -/
def panicError : String := "errors.PanicError"

def panicNilError : String := "runtime.PanicNilError"

def anyError : String := "errors.AnyError"

def defaults : Map String Directive :=
  ((∅ : Map String Directive).insert panicError .stop).insert panicNilError .restart

structure Supervisor where
  strategy : Strategy
  maxRetries : ℕ
  timeout : ℤ
  directives : Map String Directive

/-- The type of an error has a name. -/
inductive SupervisorOption
  | withStrategy (strategy : Strategy)
  | withDirective (errorType : String) (named : errorType ≠ "") (directive : Directive)
  | withRetry (maxRetries : ℕ) (timeout : ℤ)
  | withAnyErrorDirective (directive : Directive)

namespace Supervisor
variable (s : Supervisor)

def setDirective (errorType : String) (directive : Directive) : Supervisor :=
  { s with directives := s.directives.insert errorType directive }

def apply : SupervisorOption → Supervisor
  | .withStrategy strategy => { s with strategy }
  | .withDirective errorType _ directive => s.setDirective errorType directive
  | .withRetry maxRetries timeout => { s with maxRetries, timeout }
  | .withAnyErrorDirective directive => s.setDirective anyError directive

/-- `NewSupervisor`. A directive for any error is the only rule. -/
def new (opts : List SupervisorOption) : Supervisor :=
  let s := opts.foldl apply ⟨.oneForOne, 0, -1, defaults⟩
  match s.directives.lookup anyError with
  | some directive => { s with directives := (∅ : Map String Directive).insert anyError directive }
  | none => s

def setDirectiveByType (errorType : String) (directive : Directive) : Supervisor :=
  if errorType = "" then s else s.setDirective errorType directive

def reset : Supervisor := { s with strategy := .oneForAll, directives := ∅ }

/-- The directive for an error that a child has failed with: that of its type, or else the one for
any error. -/
def resolve (errorType : String) : Option Directive :=
  (s.directives.lookup errorType).or (s.directives.lookup anyError)

end Supervisor

/-- The calls that change a supervisor. -/
inductive Call
  | setDirectiveByType (errorType : String) (directive : Directive)
  | reset

def Supervisor.call (s : Supervisor) : Call → Supervisor
  | .setDirectiveByType errorType directive => s.setDirectiveByType errorType directive
  | .reset => s.reset

/-- A duration on the wire, in seconds and nanoseconds of one sign. -/
structure Duration where
  seconds : ℤ
  nanos : ℤ

namespace Duration

def new (d : ℤ) : Duration := ⟨d.tdiv 1000000000, d.tmod 1000000000⟩

def asDuration (d : Duration) : ℤ := d.seconds * 1000000000 + d.nanos

@[simp] lemma asDuration_new (d : ℤ) : (new d).asDuration = d := by
  rw [asDuration, new, Int.mul_comm, Int.mul_tdiv_add_tmod]

end Duration

/-- The enumerations of the wire have the members of the package's. -/
structure SupervisorSpec where
  strategy : Strategy
  maxRetries : ℕ
  timeout : Option Duration
  anyErrorDirective : Option Directive
  directives : List (String × Directive)

def encodeSupervisor (s : Supervisor) : SupervisorSpec :=
  let spec : SupervisorSpec := ⟨s.strategy, s.maxRetries, some (.new s.timeout), none, []⟩
  match s.directives.lookup anyError with
  | some directive => { spec with anyErrorDirective := some directive }
  | none =>
    let rules := (s.directives.entries.map fun rule => (rule.1, rule.2)).filter (·.1 ≠ "")
    { spec with directives := rules.mergeSort fun a b => !decide (b.1 < a.1) }

def decodeSupervisor (spec : SupervisorSpec) : Supervisor :=
  let retry := if spec.timeout.isSome ∨ spec.maxRetries ≠ 0 then
      [.withRetry spec.maxRetries ((spec.timeout.map Duration.asDuration).getD 0)] else []
  let opts := .withStrategy spec.strategy :: retry
  match spec.anyErrorDirective with
  | some directive => .new (opts ++ [.withAnyErrorDirective directive])
  | none =>
    spec.directives.foldl (fun s rule => if rule.1 = "" then s
      else s.setDirectiveByType rule.1 rule.2) (.new opts)

namespace Supervisor
variable {s : Supervisor}

/-- What the wire can carry: a directive for any error stands alone or agrees with the others, and
without one the rules for panics are there. -/
structure Fits (s : Supervisor) : Prop where
  alone : ∀ d, s.directives.lookup anyError = some d →
    ∀ errorType d', s.directives.lookup errorType = some d' → d' = d
  defaults : s.directives.lookup anyError = none →
    (s.directives.lookup panicError).isSome ∧ (s.directives.lookup panicNilError).isSome

/-- Every rule of a supervisor has a named type. -/
lemma lookup_empty_call (h : s.directives.lookup "" = none) (c : Call) :
    (s.call c).directives.lookup "" = none := by
  cases c with
  | setDirectiveByType errorType directive =>
    simp only [call, setDirectiveByType]
    split_ifs with hempty
    · exact h
    · rw [setDirective, lookup_insert_ite, if_neg (Ne.symm hempty), h]
  | reset => rfl

lemma lookup_empty_apply (h : s.directives.lookup "" = none) (opt : SupervisorOption) :
    (s.apply opt).directives.lookup "" = none := by
  cases opt with
  | withStrategy | withRetry => exact h
  | withDirective errorType named directive =>
    rw [apply, setDirective, lookup_insert_ite, if_neg (Ne.symm named), h]
  | withAnyErrorDirective directive =>
    rw [apply, setDirective, lookup_insert_ite, if_neg (by decide), h]

lemma lookup_empty (opts : List SupervisorOption) (calls : List Call) :
    (calls.foldl call (new opts)).directives.lookup "" = none := by
  refine List.foldlRecOn (motive := fun s : Supervisor => s.directives.lookup "" = none) calls call
    ?_ fun s h c _ => lookup_empty_call h c
  simp only [new]
  split
  · rfl
  · exact List.foldlRecOn (motive := fun s : Supervisor => s.directives.lookup "" = none) opts
      apply rfl fun s h opt _ => lookup_empty_apply h opt

lemma foldl_setDirectiveByType {rules : List (String × Directive)} (hnamed : ∀ r ∈ rules, r.1 ≠ "")
    (s : Supervisor) :
    rules.foldl (fun s rule => if rule.1 = "" then s else s.setDirectiveByType rule.1 rule.2) s =
      { s with directives := rules.foldl (fun m rule => m.insert rule.1 rule.2) s.directives } := by
  induction rules generalizing s with
  | nil => rfl
  | cons rule rules ih =>
    obtain ⟨hrule, hnamed⟩ := forall_mem_cons.mp hnamed
    rw [foldl_cons, foldl_cons, if_neg hrule, ih hnamed, setDirectiveByType, if_neg hrule]
    rfl

/-- Without a directive for any error, the decoder puts the rules over the defaults. -/
lemma decode_eq (hany : s.directives.lookup anyError = none)
    (hempty : s.directives.lookup "" = none) : ∃ rules : List (String × Directive),
      (rules.map (·.1)).Nodup ∧ (∀ t d, (t, d) ∈ rules ↔ s.directives.lookup t = some d) ∧
      decodeSupervisor (encodeSupervisor s) =
        { s with directives := rules.foldl (fun m rule => m.insert rule.1 rule.2) defaults } := by
  set rules := ((s.directives.entries.map fun rule => (rule.1, rule.2)).filter (·.1 ≠ "")).mergeSort
    fun a b => !decide (b.1 < a.1) with hrules
  have hmem : ∀ t d, (t, d) ∈ rules ↔ s.directives.lookup t = some d := by
    intro t d
    rw [hrules, (mergeSort_perm _ _).mem_iff, mem_filter, mem_map,
      ← mem_entries_iff_lookup s.directives t d]
    constructor
    · rintro ⟨⟨rule, hrule, heq⟩, -⟩
      cases heq
      exact hrule
    · refine fun hrule => ⟨⟨_, hrule, rfl⟩, decide_eq_true ?_⟩
      rintro rfl
      rw [mem_entries_iff_lookup, hempty] at hrule
      cases hrule
  have hbase : new [.withStrategy s.strategy, .withRetry s.maxRetries s.timeout] =
      ⟨s.strategy, s.maxRetries, s.timeout, defaults⟩ := rfl
  refine ⟨rules, ?_, hmem, ?_⟩
  · have hkeys := s.directives.keys_nodup
    rw [hrules, ((mergeSort_perm _ _).map _).nodup_iff]
    refine .sublist (filter_sublist.map _) ?_
    rwa [map_map]
  · have hencode : encodeSupervisor s =
        ⟨s.strategy, s.maxRetries, some (.new s.timeout), none, rules⟩ := by
      simp only [encodeSupervisor, hany, hrules]
    have hnamed : ∀ r ∈ rules, r.1 ≠ "" := by
      rintro ⟨t, d⟩ hr rfl
      rw [hmem, hempty] at hr
      cases hr
    simp only [hencode, decodeSupervisor, Option.isSome_some, true_or, if_true, Option.map_some,
      Duration.asDuration_new, Option.getD_some]
    rw [foldl_setDirectiveByType hnamed, hbase]

/-- The decoded supervisor has a rule for a type of error if the encoded one or the defaults do. -/
lemma resolve_decode {s : Supervisor} (hany : s.directives.lookup anyError = none)
    (hempty : s.directives.lookup "" = none) (t : String) :
    (decodeSupervisor (encodeSupervisor s)).resolve t =
      (s.resolve t).or (defaults.lookup t) := by
  obtain ⟨rules, hnodup, hmem, hdecoded⟩ := decode_eq hany hempty
  have hlookup (t : String) : (decodeSupervisor (encodeSupervisor s)).directives.lookup t =
      (s.directives.lookup t).or (defaults.lookup t) := by
    rw [hdecoded]
    cases ht : s.directives.lookup t with
    | some d => exact lookup_foldl_insert hnodup _ ((hmem t d).mpr ht)
    | none =>
      have hnot : t ∉ rules.map (·.1) := fun hrule => by
        obtain ⟨⟨t', d⟩, hr, rfl⟩ := mem_map.mp hrule
        rw [hmem, ht] at hr
        cases hr
      exact lookup_foldl_insert_of_notMem hnot _
  simp only [resolve, hlookup, hany, Option.none_or, Option.or_none]
  rw [show defaults.lookup anyError = none by decide, Option.or_none]

/-- The decoded supervisor has the same strategy, retries and timeout and resolves every type of
error as before if and only if the wire can carry the rules. -/
theorem decode_encode_iff (opts : List SupervisorOption) (calls : List Call) :
    let s := calls.foldl call (new opts)
    let decoded := decodeSupervisor (encodeSupervisor s)
    (decoded.strategy = s.strategy ∧ decoded.maxRetries = s.maxRetries ∧
      decoded.timeout = s.timeout ∧
      ∀ errorType, decoded.resolve errorType = s.resolve errorType) ↔ s.Fits := by
  intro s decoded
  have hempty : s.directives.lookup "" = none := lookup_empty opts calls
  cases hany : s.directives.lookup anyError with
  | some d =>
    have hdecoded : decoded =
        { s with directives := (∅ : Map String Directive).insert anyError d } := by
      simp [decoded, encodeSupervisor, decodeSupervisor, hany, new, apply, setDirective]
    have hresolve (t : String) : decoded.resolve t = some d := by
      rw [hdecoded, resolve, AList.lookup_insert, lookup_insert_ite]
      split_ifs <;> rfl
    constructor
    · rintro ⟨-, -, -, hsame⟩
      refine ⟨fun d' hd' t directive ht => ?_, fun hnone => ?_⟩
      · have heq := hsame t
        rw [hresolve, resolve, ht, Option.some_or, ← hany, hd'] at heq
        exact (Option.some.inj heq).symm
      · rw [hany] at hnone
        cases hnone
    · intro hfits
      refine ⟨by rw [hdecoded], by rw [hdecoded], by rw [hdecoded], fun t => ?_⟩
      rw [hresolve, resolve, hany]
      cases ht : s.directives.lookup t with
      | none => rfl
      | some directive => rw [hfits.alone d hany t directive ht, Option.some_or]
  | none =>
    have hresolve (t : String) : s.resolve t = s.directives.lookup t := by
      rw [resolve, hany, Option.or_none]
    constructor
    · rintro ⟨-, -, -, hsame⟩
      -- a default without a rule of the supervisor's own comes back
      have hrule (t : String) (ht : (defaults.lookup t).isSome) :
          (s.directives.lookup t).isSome := by
        have heq := hsame t
        rw [resolve_decode hany hempty, hresolve] at heq
        rw [← heq, Option.isSome_or, ht, Bool.or_true]
      refine ⟨fun d hd => ?_, fun _ => ⟨hrule _ (by decide), hrule _ (by decide)⟩⟩
      rw [hany] at hd
      cases hd
    · intro hfits
      obtain ⟨hpanic, hnil⟩ := hfits.defaults hany
      obtain ⟨rules, -, -, hdecoded⟩ := decode_eq hany hempty
      refine ⟨by simp only [decoded, hdecoded], by simp only [decoded, hdecoded],
        by simp only [decoded, hdecoded], fun t => ?_⟩
      rw [resolve_decode hany hempty, hresolve]
      cases ht : s.directives.lookup t with
      | some d => rfl
      | none =>
        have hother : t ≠ panicError ∧ t ≠ panicNilError := by
          constructor <;> rintro rfl <;> simp [ht] at hpanic hnil
        rw [defaults, lookup_insert_ite, if_neg hother.2, lookup_insert_ite, if_neg hother.1]
        rfl

/-- After `Reset` the decoder brings the rules for panics back, and beside a directive for any error
the other rules are lost. -/
theorem decode_encode_differs :
    (new [] |>.reset).resolve panicError = none ∧
      (decodeSupervisor (encodeSupervisor (new []).reset)).resolve panicError = some .stop ∧
      ((new [.withAnyErrorDirective .restart]).setDirectiveByType "net.OpError" .stop).resolve
        "net.OpError" = some .stop ∧
      (decodeSupervisor (encodeSupervisor ((new [.withAnyErrorDirective
        .restart]).setDirectiveByType "net.OpError" .stop))).resolve "net.OpError" =
        some .restart := by
  decide +kernel

end Supervisor
end GoAkt.Supervision
