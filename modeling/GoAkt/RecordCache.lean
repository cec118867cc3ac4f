import Mathlib.Tactic

/-!
# The cache of data center records

`recordCache` keeps the active records and the versions of deleted ones, and filters events and
refreshes by the version that it has for their ID. A refresh that replaces the records drops those
it does not list, or lists at an older version, and forgets their versions.
-/
namespace GoAkt.DataCenter
open Function List

inductive DataCenterState
  | registered
  | active
  | draining
  | inactive
deriving DecidableEq

/-- The fields that the cache reads. -/
structure DataCenterRecord where
  id : String
  version : ℕ
  state : DataCenterState
deriving DecidableEq

inductive EventType
  | upsert
  | delete
deriving DecidableEq

structure RecordCache where
  records : String → Option DataCenterRecord
  tombstones : String → Option ℕ

namespace RecordCache
variable (x : RecordCache) {l : List DataCenterRecord} {r : DataCenterRecord}

def new : RecordCache := ⟨fun _ => none, fun _ => none⟩

def currentVersion (id : String) : ℕ :=
  match x.records id with
  | some r => r.version
  | none => (x.tombstones id).getD 0

def shouldApply (id : String) (version : ℕ) : Bool :=
  if version = 0 then x.currentVersion id = 0 else x.currentVersion id ≤ version

def put (r : DataCenterRecord) : RecordCache :=
  ⟨update x.records r.id (some r), update x.tombstones r.id none⟩

/-- The tests that a refresh makes for a record. -/
def takes (r : DataCenterRecord) : Bool :=
  r.id ≠ "" && r.state = .active && x.shouldApply r.id r.version

def merge (l : List DataCenterRecord) : RecordCache :=
  l.foldl (fun x r => if x.takes r then x.put r else x) x

/-- The new map is filled while the old one, with the tombstones as they change, is asked. -/
def replace (l : List DataCenterRecord) : RecordCache :=
  l.foldl (fun y r => if takes ⟨x.records, y.tombstones⟩ r then y.put r else y)
    ⟨fun _ => none, x.tombstones⟩

def apply (type : EventType) (r : DataCenterRecord) : RecordCache :=
  if r.id = "" then x
  else if !x.shouldApply r.id r.version then x
  else if type = .delete ∨ r.state ≠ .active then
    { records := update x.records r.id none
      tombstones := if 0 < r.version then update x.tombstones r.id (some r.version)
        else x.tombstones }
  else x.put r

inductive Call
  | apply (type : EventType) (r : DataCenterRecord)
  | merge (l : List DataCenterRecord)
  | replace (l : List DataCenterRecord)

def call : Call → RecordCache
  | .apply type r => x.apply type r
  | .merge l => x.merge l
  | .replace l => x.replace l

def after (calls : List Call) : RecordCache := calls.foldl call new

/-- The versions that a call carries are positive. -/
def Call.Positive : Call → Prop
  | .apply _ r => 0 < r.version
  | .merge l | .replace l => ∀ r ∈ l, 0 < r.version

/-- A list names an ID twice that was deleted, or a record is cached and none of its ID in the list
is taken. -/
def Drops : Call → Prop
  | .replace l => (∃ id, x.tombstones id ≠ none ∧ 2 ≤ (l.map (·.id)).count id) ∨
    ∃ id, (x.records id).isSome ∧ ∀ r ∈ l, r.id = id → x.takes r = false
  | _ => False

variable {x}

lemma le_of_shouldApply {id : String} {version : ℕ} (hpos : 0 < version)
    (h : x.shouldApply id version = true) : x.currentVersion id ≤ version := by
  simpa [shouldApply, hpos.ne'] using h

lemma le_of_takes (hpos : 0 < r.version) (h : x.takes r = true) :
    x.currentVersion r.id ≤ r.version := by
  rw [takes, Bool.and_eq_true] at h
  exact le_of_shouldApply hpos h.2

lemma le_put (h : x.currentVersion r.id ≤ r.version) (id : String) :
    x.currentVersion id ≤ (x.put r).currentVersion id := by
  by_cases hid : id = r.id
  · subst hid
    simpa [put, currentVersion] using h
  · simp [put, currentVersion, hid]

lemma le_merge (hpos : ∀ r ∈ l, 0 < r.version) (id : String) :
    x.currentVersion id ≤ (x.merge l).currentVersion id := by
  induction l generalizing x with
  | nil => exact le_rfl
  | cons r l ih =>
    rw [forall_mem_cons] at hpos
    rw [merge, foldl_cons]
    refine le_trans ?_ (ih hpos.2)
    split_ifs with htakes
    · exact le_put (le_of_takes hpos.1 htakes) id
    · exact le_rfl

/-- What a refresh does to an ID if it names the deleted ones once: a record that it lists is taken,
or there is none left and the tombstone stays. -/
lemma replace_spec (honce : ∀ id, x.tombstones id ≠ none → (l.map (·.id)).count id < 2)
    (id : String) :
    (∃ r ∈ l, r.id = id ∧ x.takes r = true ∧ (x.replace l).records id = some r ∧
      (x.replace l).tombstones id = none) ∨
      (∀ r ∈ l, r.id = id → x.takes r = false) ∧ (x.replace l).records id = none ∧
        (x.replace l).tombstones id = x.tombstones id := by
  induction l using reverseRecOn generalizing id with
  | nil => exact .inr ⟨nofun, rfl, rfl⟩
  | append_singleton l r ih =>
    have hold := ih fun id htomb => (honce id htomb).trans_le' <| by
      rw [map_append]
      exact (sublist_append_left _ _).count_le id
    -- the tombstone of `r` is the old one when `r` is tested
    have htomb : (x.replace l).tombstones r.id = x.tombstones r.id := by
      rcases hold r.id with ⟨r', hmem, hid, -, -, hnone⟩ | ⟨-, -, htomb⟩
      · refine hnone.trans (by_contra fun hsome => ?_)
        have htwice := honce r.id (Ne.symm hsome)
        rw [map_append, count_append, map_singleton, count_singleton_self] at htwice
        have hpos : 0 < (l.map (·.id)).count r.id :=
          count_pos_iff.mpr (mem_map.mpr ⟨r', hmem, hid⟩)
        omega
      · exact htomb
    have htakes : takes ⟨x.records, (x.replace l).tombstones⟩ r = x.takes r := by
      have hversion : currentVersion ⟨x.records, (x.replace l).tombstones⟩ r.id =
          x.currentVersion r.id := by
        rw [currentVersion, currentVersion, htomb]
      rw [takes, takes, shouldApply, shouldApply, hversion]
    have hstep : x.replace (l ++ [r]) = if x.takes r then (x.replace l).put r else x.replace l := by
      rw [← htakes]
      exact foldl_append ..
    rw [hstep]
    by_cases hr : x.takes r = true
    · by_cases hid : r.id = id
      · exact .inl ⟨r, by simp, hid, hr, by simp [hr, put, hid], by simp [hr, put, hid]⟩
      · simpa [hr, put, Ne.symm hid, hid, or_and_right, exists_or, or_imp, forall_and] using hold id
    · simpa [hr, or_and_right, exists_or, or_imp, forall_and] using hold id

variable {calls past : List Call}

lemma after_concat (past : List Call) (c : Call) :
    after (past ++ [c]) = (after past).call c :=
  foldl_append ..

lemma le_call {c : Call} (hpos : c.Positive) (hkeeps : ¬x.Drops c) (id : String) :
    x.currentVersion id ≤ (x.call c).currentVersion id := by
  cases c with
  | merge l => exact le_merge hpos id
  | apply type r =>
    rw [call, apply, if_pos (show 0 < r.version from hpos)]
    split_ifs with hid hold hdelete
    · exact le_rfl
    · exact le_rfl
    · have hle := le_of_shouldApply hpos (by simpa using hold)
      by_cases heq : id = r.id
      · subst heq
        simpa [currentVersion, hpos] using hle
      · simp [currentVersion, heq]
    · exact le_put (le_of_shouldApply hpos (by simpa using hold)) id
  | replace l =>
    simp only [Drops, not_or, not_exists, not_and, not_le] at hkeeps
    rcases replace_spec (x := x) hkeeps.1 id with
      ⟨r, hmem, rfl, htakes, hrecord, -⟩ | ⟨hnone, hrecord, htomb⟩
    · refine (le_of_takes (hpos r hmem) htakes).trans (le_of_eq ?_)
      rw [call, currentVersion, hrecord]
    · have hold : x.records id = none := by
        by_contra hsome
        exact hkeeps.2 id (Option.isSome_iff_ne_none.mpr hsome) hnone
      simp [call, currentVersion, hrecord, htomb, hold]

section
variable (hpos : ∀ c ∈ calls, c.Positive)
  (hkeeps : ∀ past c, past ++ [c] <+: calls → ¬(after past).Drops c)
include hpos hkeeps

lemma currentVersion_mono (hpast : past <+: calls) (id : String) :
    (after past).currentVersion id ≤ (after calls).currentVersion id := by
  obtain ⟨rest, rfl⟩ := hpast
  induction rest using reverseRecOn with
  | nil => rw [append_nil]
  | append_singleton rest c ih =>
    rw [← append_assoc] at hpos hkeeps ⊢
    refine (ih (fun c hc => hpos c (mem_append_left _ hc)) fun before c hbefore =>
      hkeeps before c (hbefore.trans (prefix_append ..))).trans ?_
    rw [after_concat]
    exact le_call (hpos c (by simp)) (hkeeps _ c prefix_rfl) id

/-- As long as refreshes drop nothing, versions never decrease, what is cached of a deleted ID is
not older than the deletion, and what a refresh lists and has not been deleted is cached. -/
theorem cache_never_goes_back :
    (∀ past id, past <+: calls → (after past).currentVersion id ≤ (after calls).currentVersion id) ∧
    (∀ past type r r', past ++ [.apply type r] <+: calls → r.id ≠ "" →
      (type = .delete ∨ r.state ≠ .active) → (after past).shouldApply r.id r.version = true →
      (after calls).records r.id = some r' → r.version ≤ r'.version) ∧
    ∀ past l, calls = past ++ [.replace l] → ∀ r ∈ l, r.id ≠ "" → r.state = .active →
      (after past).tombstones r.id = none → ((after calls).records r.id).isSome := by
  refine ⟨fun past id hpast => currentVersion_mono hpos hkeeps hpast id, ?_, ?_⟩
  · intro past type r r' hpast hid hdelete happly hrecord
    have hle := currentVersion_mono hpos hkeeps hpast r.id
    have hversion : 0 < r.version := hpos _ (hpast.subset mem_concat_self)
    rw [after_concat] at hle
    simpa [call, apply, hid, happly, hdelete, currentVersion, hversion, hrecord] using hle
  · rintro past l rfl r hmem hid hactive htomb
    have hdrops := hkeeps past _ prefix_rfl
    simp only [Drops, not_or, not_exists, not_and, not_le] at hdrops
    rw [after_concat]
    rcases replace_spec (x := after past) hdrops.1 r.id with
      ⟨r', -, -, -, hrecord, -⟩ | ⟨hnone, -, -⟩
    · exact Option.isSome_iff_exists.mpr ⟨r', hrecord⟩
    · -- nothing is cached of `r`, so it is taken
      have hold : (after past).records r.id = none := by
        by_contra hsome
        exact hdrops.2 r.id (Option.isSome_iff_ne_none.mpr hsome) hnone
      have htaken : (after past).takes r = true := by
        simp [takes, shouldApply, currentVersion, hid, hactive, hold, htomb]
      exact nomatch htaken.symm.trans (hnone r hmem rfl)

end

/-- A record in its versions. -/
def east (version : ℕ) : DataCenterRecord := ⟨"east", version, .active⟩

/-- A refresh brings a record back at a version after its deletion, and another one lists the cached
record twice. -/
theorem cache_never_goes_back_east :
    3 ≤ (after [.apply .delete (east 2), .replace [east 3],
      .replace [east 5, east 4]]).currentVersion "east" := by
  refine (cache_never_goes_back (by simp [Call.Positive, east]) ?_).1
    [.apply .delete (east 2), .replace [east 3]] "east" (by simp)
  rintro (_ | ⟨first, _ | ⟨second, _ | ⟨third, past⟩⟩⟩) c ⟨rest, heq⟩
  · cases heq
    exact id
  · cases heq
    rintro (⟨id, -, htwice⟩ | ⟨id, hcached, -⟩)
    · exact absurd (htwice.trans count_le_length) (by simp)
    · simp [after, call, apply, new, east, currentVersion, shouldApply] at hcached
  · cases heq
    simp [Drops, after, call, apply, replace, put, takes, new, east, currentVersion, shouldApply,
      update_apply]
  · simp at heq

/-- Once a refresh has dropped a record, one that is older than its deletion returns. And a record
that is listed at an older version is dropped. -/
theorem deleted_record_returns :
    (after [.apply .delete (east 5), .replace [east 6], .replace [],
      .apply .upsert (east 4)]).records "east" = some (east 4) ∧
    (after [.apply .upsert (east 5), .replace [east 4]]).records "east" = none := by
  decide +kernel

end RecordCache
end GoAkt.DataCenter
