import LaunchPad.Lib.Text
import LaunchPad.Upcasting
import Mathlib.Data.Int.Range
import Mathlib.Data.List.Find

/-!
# Upcasting composes

The key of an upcaster determines its event type and its versions, so the loop finds what was
registered last for the step it takes. It takes the steps from the event's version up to the target
in order, as far as they are registered; to stop on the way and go on from there changes nothing.

Asked for a version below its own, an event is not touched and gets the lower label. So the labels
are true, and no step is taken twice, where no version asked for is below the one before.
-/

namespace LaunchPad

open EventSerializer

variable {D : Type}

/-! ## The registry -/

theorem upcasterKey_inj {eventType eventType' : String} {fromVersion fromVersion' toVersion
    toVersion' : ℤ} :
    upcasterKey eventType fromVersion toVersion = upcasterKey eventType' fromVersion' toVersion'
      ↔ eventType = eventType' ∧ fromVersion = fromVersion' ∧ toVersion = toVersion' := by
  refine ⟨fun h => ?_, by rintro ⟨rfl, rfl, rfl⟩; rfl⟩
  have hlist := congrArg String.toList h
  simp only [upcasterKey, String.toList_append] at hlist
  have hto := Text.append_cons_inj
    (eventType.toList ++ ":".toList ++ (toString fromVersion).toList ++ ['-'])
    (eventType'.toList ++ ":".toList ++ (toString fromVersion').toList ++ ['-'])
    (Text.notMem_toString toVersion (c := '>') rfl (by decide))
    (Text.notMem_toString toVersion' rfl (by decide)) (by simpa using hlist)
  have hfrom := Text.append_cons_inj eventType.toList eventType'.toList
    (Text.notMem_toString fromVersion (c := ':') rfl (by decide))
    (Text.notMem_toString fromVersion' rfl (by decide))
    (by simpa using List.append_cancel_right hto.1)
  exact ⟨String.toList_injective hfrom.1, Text.toString_injective
    (String.toList_injective hfrom.2), Text.toString_injective (String.toList_injective hto.2)⟩

/-- The upcaster of these versions, after one more call. -/
def noted (eventType : String) (fromVersion toVersion : ℤ) (found : Option (UpcasterFn D)) :
    RegistryCall D → Option (UpcasterFn D)
  | .registerUpcaster eventType' fromVersion' toVersion' upcaster =>
    if eventType = eventType' ∧ fromVersion = fromVersion' ∧ toVersion = toVersion' then
      some upcaster
    else found
  | .clearUpcasters => none

/-- What was registered last for these versions of an event type. -/
def registered (calls : List (RegistryCall D)) (eventType : String) (fromVersion toVersion : ℤ) :
    Option (UpcasterFn D) :=
  calls.foldl (noted eventType fromVersion toVersion) none

theorem registry_key (calls : List (RegistryCall D)) (eventType : String)
    (fromVersion toVersion : ℤ) :
    registry calls (upcasterKey eventType fromVersion toVersion)
      = registered calls eventType fromVersion toVersion := by
  suffices h : ∀ upcasters : Upcasters D,
      calls.foldl change upcasters (upcasterKey eventType fromVersion toVersion)
        = calls.foldl (noted eventType fromVersion toVersion)
          (upcasters (upcasterKey eventType fromVersion toVersion)) from h _
  induction calls with
  | nil => exact fun _ => rfl
  | cons call calls ih =>
    intro upcasters
    rw [List.foldl_cons, List.foldl_cons, ih]
    cases call with
    | registerUpcaster eventType' fromVersion' toVersion' upcaster =>
      simp only [change, registerUpcaster, noted, upcasterKey_inj]
    | clearUpcasters => rfl

/-! ## The steps -/

/-- The upcaster from a version of an event type to the next. -/
def stepFrom (calls : List (RegistryCall D)) (eventType : String) (version : ℤ) :
    Option (UpcasterFn D) :=
  registered calls eventType version (version + 1)

/-- The data taken through these steps, one after the other. -/
def carried (step : ℤ → Option (UpcasterFn D)) (versions : List ℤ) (data : D) : D :=
  versions.foldl (fun data version => (step version).elim data fun upcaster => upcaster data) data

theorem range_of_lt {v n : ℤ} (h : v < n) : Int.range v n = v :: Int.range (v + 1) n := by
  obtain ⟨k, hk⟩ : ∃ k, (n - v).toNat = k + 1 := ⟨(n - v).toNat - 1, by omega⟩
  have hk' : (n - (v + 1)).toNat = k := by omega
  simp only [Int.range, hk, hk', List.range_succ_eq_map, List.map_cons, List.map_map]
  congr 1
  · simp
  · refine List.map_congr_left fun i _ => ?_
    simp only [Function.comp_apply]
    omega

theorem range_of_le {v n : ℤ} (h : n ≤ v) : Int.range v n = [] := by
  have hzero : (n - v).toNat = 0 := by omega
  simp [Int.range, hzero]

theorem range_append {v m n : ℤ} (hm : v ≤ m) (hn : m ≤ n) :
    Int.range v m ++ Int.range m n = Int.range v n := by
  obtain ⟨k, rfl⟩ := Int.le.dest hm
  induction k generalizing v with
  | zero => rw [range_of_le (by omega), List.nil_append, Int.natCast_zero, Int.add_zero]
  | succ k ih =>
    have hnext := ih (v := v + 1) (by omega) (by omega)
    have hsum : v + 1 + (k : ℤ) = v + (k + 1 : ℕ) := by omega
    rw [hsum] at hnext
    rw [range_of_lt (v := v) (by omega), range_of_lt (v := v) (n := n) (by omega),
      List.cons_append, hnext]

theorem nodup_range (v n : ℤ) : (Int.range v n).Nodup :=
  List.nodup_range.map fun i j h => by omega

/-- The loop stops at the first step that is not registered, or has taken them all. -/
theorem upcastLoop_eq (calls : List (RegistryCall D)) (eventType : String)
    (targetVersion currentVersion : ℤ) (currentData : D) :
    upcastLoop (registry calls) eventType targetVersion currentVersion currentData
      = ((Int.range currentVersion targetVersion).find? fun version =>
          (stepFrom calls eventType version).isNone).elim
        (.ok (carried (stepFrom calls eventType) (Int.range currentVersion targetVersion)
          currentData))
        fun version => .error (noUpcaster eventType version (version + 1)) := by
  fun_induction upcastLoop (registry calls) eventType targetVersion currentVersion currentData with
  | case1 version data hlt next hnone =>
    rw [registry_key] at hnone
    have hstep : stepFrom calls eventType version = none := hnone
    rw [range_of_lt hlt]
    simp [hstep, next]
  | case2 version data hlt next upcaster hsome ih =>
    rw [registry_key] at hsome
    have hstep : stepFrom calls eventType version = some upcaster := hsome
    rw [ih, range_of_lt hlt]
    simp [hstep, carried, next]
  | case3 version data hlt =>
    rw [range_of_le (not_lt.1 hlt)]
    rfl

variable [EmptyCollection D]

/-- The event with these data, labelled with the version they are of. -/
def EventSerializer.relabel (event : EventEnvelope D) (version : ℤ) (data : D) : EventEnvelope D :=
  { event with rest := { event.rest with version, data := some data } }

/-- The data of an event taken through the steps from its version on. -/
def carriedTo (calls : List (RegistryCall D)) (event : EventEnvelope D) (version : ℤ) : D :=
  carried (stepFrom calls event.eventType) (Int.range event.rest.version version)
    (event.rest.data.getD ∅)

/-- The first step up to a version that is not registered. -/
def missing (calls : List (RegistryCall D)) (event : EventEnvelope D) (version : ℤ) : Option ℤ :=
  (Int.range event.rest.version version).find? fun k => (stepFrom calls event.eventType k).isNone

theorem upcast_eq (calls : List (RegistryCall D)) (event : EventEnvelope D) (version : ℤ) :
    upcast (registry calls) event version = (missing calls event version).elim
      (.ok (relabel event version (carriedTo calls event version)))
      fun k => .error (noUpcaster event.eventType k (k + 1)) := by
  rw [upcast, upcastLoop_eq, missing]
  rcases (Int.range event.rest.version version).find? _ with _ | k <;> rfl

theorem upcast_eq_ok_iff {calls : List (RegistryCall D)} {event e' : EventEnvelope D}
    {version : ℤ} :
    upcast (registry calls) event version = .ok e'
      ↔ missing calls event version = none
        ∧ e' = relabel event version (carriedTo calls event version) := by
  rw [upcast_eq]
  rcases missing calls event version with _ | k <;> simp [eq_comm]

omit [EmptyCollection D] in
theorem missing_eq_none_iff {calls : List (RegistryCall D)} {event : EventEnvelope D}
    {version : ℤ} :
    missing calls event version = none
      ↔ ∀ k, event.rest.version ≤ k → k < version → stepFrom calls event.eventType k ≠ none := by
  simp only [missing, List.find?_eq_none, Int.mem_range_iff, Option.isNone_iff_eq_none, and_imp]

theorem upcast_eq_error_iff {calls : List (RegistryCall D)} {event : EventEnvelope D}
    {version : ℤ} :
    (∃ message, upcast (registry calls) event version = .error message)
      ↔ ∃ k, event.rest.version ≤ k ∧ k < version ∧ stepFrom calls event.eventType k = none := by
  have hmissing := (@missing_eq_none_iff D calls event version).not
  push Not at hmissing
  rw [← hmissing, upcast_eq]
  rcases missing calls event version with _ | k <;> simp

/-- Only the steps on the way matter. -/
theorem upcast_congr {calls calls' : List (RegistryCall D)} {event : EventEnvelope D} {version : ℤ}
    (h : ∀ k, event.rest.version ≤ k → k < version →
      stepFrom calls' event.eventType k = stepFrom calls event.eventType k) :
    upcast (registry calls') event version = upcast (registry calls) event version := by
  have hrange : ∀ k ∈ Int.range event.rest.version version,
      stepFrom calls' event.eventType k = stepFrom calls event.eventType k := fun k hk =>
    h k (Int.mem_range_iff.1 hk).1 (Int.mem_range_iff.1 hk).2
  have hmissing : missing calls' event version = missing calls event version :=
    List.find?_congr fun k hk => by rw [hrange k hk]
  have hcarried : carriedTo calls' event version = carriedTo calls event version :=
    List.foldl_ext _ _ _ fun data k hk => by rw [hrange k hk]
  rw [upcast_eq, upcast_eq, hmissing, hcarried]

/-! ## Up to a version, and on from there -/

section Compose

variable {calls : List (RegistryCall D)} {event : EventEnvelope D} {m n : ℤ}

theorem carriedTo_relabel (hm : event.rest.version ≤ m) (hn : m ≤ n) :
    carriedTo calls (relabel event m (carriedTo calls event m)) n = carriedTo calls event n := by
  have happend := range_append hm hn
  simp only [carriedTo, relabel, Option.getD_some, carried]
  rw [← happend, List.foldl_append]

omit [EmptyCollection D] in
theorem missing_relabel (hm : event.rest.version ≤ m) (hn : m ≤ n) (data : D) :
    missing calls event n = (missing calls event m).or (missing calls (relabel event m data) n) := by
  simp only [missing, relabel, ← range_append hm hn, List.find?_append]

theorem upcast_upcast (hm : event.rest.version ≤ m) (hn : m ≤ n) :
    (upcast (registry calls) event m).bind (fun e => upcast (registry calls) e n)
      = upcast (registry calls) event n := by
  rw [upcast_eq calls event m, upcast_eq calls event n,
    missing_relabel hm hn (carriedTo calls event m)]
  rcases missing calls event m with _ | k
  · simp only [Option.elim_none, Except.bind, Option.none_or, upcast_eq,
      carriedTo_relabel hm hn]
    rfl
  · rfl

end Compose

/-- What it means that upcasting composes. -/
structure UpcastComposes (calls : List (RegistryCall D)) (event : EventEnvelope D) (m n : ℤ) :
    Prop where
  compose : (upcast (registry calls) event m).bind (fun e => upcast (registry calls) e n)
    = upcast (registry calls) event n
  throws_iff : (∃ message, upcast (registry calls) event n = .error message)
    ↔ ∃ k, event.rest.version ≤ k ∧ k < n ∧ registered calls event.eventType k (k + 1) = none
  returns : ∀ e', upcast (registry calls) event n = .ok e' →
    e' = { event with
      rest := { event.rest with
        version := n
        data := some (carried (fun k => registered calls event.eventType k (k + 1))
          (Int.range event.rest.version n) (event.rest.data.getD ∅)) } }
  others : ∀ calls' : List (RegistryCall D),
    (∀ k, event.rest.version ≤ k → k < n →
      registered calls' event.eventType k (k + 1) = registered calls event.eventType k (k + 1)) →
    upcast (registry calls') event n = upcast (registry calls) event n

/-- Whatever was registered, in whatever order: to stop at a version on the way changes nothing, and
only the event type's own steps on the way matter. -/
theorem upcasting_composes (calls : List (RegistryCall D)) (event : EventEnvelope D) (m n : ℤ)
    (hm : event.rest.version ≤ m) (hn : m ≤ n) : UpcastComposes calls event m n where
  compose := upcast_upcast hm hn
  throws_iff := upcast_eq_error_iff
  returns _ h := (upcast_eq_ok_iff.1 h).2
  others _ h := upcast_congr h

/-- An order confirmed in the first version, whose data are the names of its fields. -/
def confirmedV1 : EventEnvelope (List String) :=
  ⟨"e1", "order.confirmed", "o1",
    ⟨1, "2026-09-08T12:00:00.000Z", "launchpad", some ["orderId"], none⟩⟩

def confirmedV2 : EventEnvelope (List String) := relabel confirmedV1 2 ["orderId", "email"]

/-- Steps to the third version, and one of another type. -/
def confirmedSteps : List (RegistryCall (List String)) :=
  [.registerUpcaster "order.confirmed" 1 2 (· ++ ["email"]),
    .registerUpcaster "order:confirmed" 1 2 (· ++ ["name"]),
    .registerUpcaster "order.confirmed" 2 3 (· ++ ["tier"])]

theorem upcasting_composes_confirmed : UpcastComposes confirmedSteps confirmedV1 2 3 :=
  upcasting_composes confirmedSteps confirmedV1 2 3 (by decide) (by decide)

/-! ## Labels -/

/-- A call that returns gives no lower label than the event has, and the data of that version; and
so do the calls on what it returns. -/
def LabelsTrue (calls : List (RegistryCall D)) : EventEnvelope D → List ℤ → Prop
  | _, [] => True
  | event, target :: targets => ∀ e', upcast (registry calls) event target = .ok e' →
    (event.rest.version ≤ e'.rest.version
      ∧ e'.rest.data = some (carriedTo calls event e'.rest.version))
    ∧ LabelsTrue calls e' targets

/-- The steps of calls of `upcast`, each on what the one before returns. -/
def stepsTaken : ℤ → List ℤ → List ℤ
  | _, [] => []
  | version, target :: targets => Int.range version target ++ stepsTaken target targets

/-- What the labels promise of upcasting to one version after the other. -/
structure LabelsNeverLie (calls : List (RegistryCall D)) (event : EventEnvelope D)
    (targets : List ℤ) (final : EventEnvelope D) : Prop where
  labels : LabelsTrue calls event targets
  direct : ∀ n ∈ targets.getLast?, ∀ e', upcast (registry calls) event n = .ok e' →
    final.rest.version = e'.rest.version ∧ final.rest.data = e'.rest.data
  once : (stepsTaken event.rest.version targets).Nodup

section Labels

variable {calls : List (RegistryCall D)}

theorem upcastAll_cons_eq_ok {event final : EventEnvelope D} {target : ℤ} {targets : List ℤ}
    (h : upcastAll (registry calls) event (target :: targets) = .ok final) :
    upcast (registry calls) event target
        = .ok (relabel event target (carriedTo calls event target))
      ∧ upcastAll (registry calls) (relabel event target (carriedTo calls event target)) targets
        = .ok final := by
  rw [upcastAll] at h
  rcases hfirst : upcast (registry calls) event target with message | e' <;> rw [hfirst] at h
  · cases h
  · obtain ⟨-, rfl⟩ := upcast_eq_ok_iff.1 hfirst
    exact ⟨rfl, h⟩

/-- The labels are true as long as no version asked for is below the one before. -/
theorem labelsTrue_iff : ∀ (targets : List ℤ) {event final : EventEnvelope D},
    upcastAll (registry calls) event targets = .ok final →
    (LabelsTrue calls event targets ↔ (event.rest.version :: targets).IsChain (· ≤ ·))
  | [], _, _, _ => by simp [LabelsTrue]
  | target :: targets, event, final, h => by
    obtain ⟨hfirst, hrest⟩ := upcastAll_cons_eq_ok h
    have ih := labelsTrue_iff targets hrest
    rw [List.isChain_cons_cons, LabelsTrue]
    constructor
    · intro hlabels
      obtain ⟨⟨hle, -⟩, htrue⟩ := hlabels _ hfirst
      exact ⟨hle, ih.1 htrue⟩
    · rintro ⟨hle, hchain⟩ e' he'
      obtain rfl := Except.ok.inj (hfirst.symm.trans he')
      exact ⟨⟨hle, rfl⟩, ih.2 hchain⟩

/-- Upcasting up and up is upcasting to the last version. -/
theorem upcastAll_eq_upcast : ∀ (targets : List ℤ) {event final : EventEnvelope D},
    upcastAll (registry calls) event targets = .ok final →
    (event.rest.version :: targets).IsChain (· ≤ ·) →
    ∀ n ∈ targets.getLast?, upcast (registry calls) event n = .ok final
  | [], _, _, _, _, _, hn => by cases hn
  | [target], event, final, h, _, n, hn => by
    obtain rfl : target = n := by simpa using hn
    obtain ⟨hfirst, hrest⟩ := upcastAll_cons_eq_ok h
    rw [hfirst]
    exact hrest
  | target :: next :: targets, event, final, h, hchain, n, hn => by
    obtain ⟨hfirst, hrest⟩ := upcastAll_cons_eq_ok h
    obtain ⟨hle, hchain⟩ := List.isChain_cons_cons.1 hchain
    have hlast : n ∈ (next :: targets).getLast? := by simpa using hn
    have ih := upcastAll_eq_upcast (next :: targets) hrest hchain n hlast
    have hn : target ≤ n := by
      have hpair := List.isChain_iff_pairwise.1 hchain
      exact (List.pairwise_cons.1 hpair).1 n (List.mem_of_mem_getLast? hlast)
    rw [← upcast_upcast hle hn, hfirst]
    exact ih

theorem le_of_mem_stepsTaken : ∀ (targets : List ℤ) {version k : ℤ},
    (version :: targets).IsChain (· ≤ ·) → k ∈ stepsTaken version targets → version ≤ k
  | [], _, _, _, hk => by cases hk
  | target :: targets, version, k, hchain, hk => by
    obtain ⟨hle, hchain⟩ := List.isChain_cons_cons.1 hchain
    rcases List.mem_append.1 hk with hk | hk
    · exact (Int.mem_range_iff.1 hk).1
    · exact hle.trans (le_of_mem_stepsTaken targets hchain hk)

theorem nodup_stepsTaken : ∀ (targets : List ℤ) {version : ℤ},
    (version :: targets).IsChain (· ≤ ·) → (stepsTaken version targets).Nodup
  | [], _, _ => .nil
  | target :: targets, version, hchain => by
    obtain ⟨-, hrest⟩ := List.isChain_cons_cons.1 hchain
    refine (nodup_range version target).append (nodup_stepsTaken targets hrest) fun k hk hk' => ?_
    exact absurd (le_of_mem_stepsTaken targets hrest hk') (not_le.2 (Int.mem_range_iff.1 hk).2)

end Labels

/-- Whatever was registered: where the calls return, the labels they give are true, the data are
those the last version has, and no step is taken twice, if and only if no version asked for is below
the one before. -/
theorem labels_never_lie_iff (calls : List (RegistryCall D)) (event final : EventEnvelope D)
    (targets : List ℤ) (h : upcastAll (registry calls) event targets = .ok final) :
    LabelsNeverLie calls event targets final
      ↔ (event.rest.version :: targets).IsChain (· ≤ ·) := by
  refine ⟨fun hlabels => (labelsTrue_iff targets h).1 hlabels.labels, fun hchain =>
    ⟨(labelsTrue_iff targets h).2 hchain, fun n hn e' he' => ?_, nodup_stepsTaken targets hchain⟩⟩
  have hlast := upcastAll_eq_upcast targets h hchain n hn
  obtain rfl := Except.ok.inj (hlast.symm.trans he')
  exact ⟨rfl, rfl⟩

/-- To the second version, and from there to the third. -/
theorem labels_never_lie_upwards :
    ∃ final, upcastAll (registry confirmedSteps) confirmedV1 [2, 3] = .ok final
      ∧ LabelsNeverLie confirmedSteps confirmedV1 [2, 3] final := by
  have hsecond : upcast (registry confirmedSteps) confirmedV1 2 = .ok confirmedV2 :=
    upcast_eq_ok_iff.2 ⟨by decide +kernel, by decide +kernel⟩
  have hthird : upcast (registry confirmedSteps) confirmedV2 3
      = .ok (relabel confirmedV2 3 ["orderId", "email", "tier"]) :=
    upcast_eq_ok_iff.2 ⟨by decide +kernel, by decide +kernel⟩
  have h : upcastAll (registry confirmedSteps) confirmedV1 [2, 3]
      = .ok (relabel confirmedV2 3 ["orderId", "email", "tier"]) := by
    simp only [upcastAll, hsecond, hthird, Except.bind]
  exact ⟨_, h, (labels_never_lie_iff confirmedSteps confirmedV1 _ [2, 3] h).2 (by decide +kernel)⟩

/-- A consumer asks for the first version of an event of the second: the data stay and the label
does not, and the next consumer's step is taken again. -/
theorem labels_lie_downwards : ∃ first again : EventEnvelope (List String),
    upcast (registry confirmedSteps) confirmedV2 1 = .ok first
      ∧ first.rest.version < confirmedV2.rest.version
      ∧ upcast (registry confirmedSteps) first 2 = .ok again
      ∧ upcast (registry confirmedSteps) confirmedV2 2 = .ok confirmedV2
      ∧ again.rest.data = some ["orderId", "email", "email"]
      ∧ confirmedV2.rest.data = some ["orderId", "email"] :=
  ⟨relabel confirmedV2 1 ["orderId", "email"], relabel confirmedV2 2 ["orderId", "email", "email"],
    upcast_eq_ok_iff.2 ⟨by decide +kernel, by decide +kernel⟩, by decide,
    upcast_eq_ok_iff.2 ⟨by decide +kernel, by decide +kernel⟩,
    upcast_eq_ok_iff.2 ⟨by decide +kernel, by decide +kernel⟩, rfl, rfl⟩

end LaunchPad
