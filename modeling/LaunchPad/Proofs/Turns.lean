import LaunchPad.Lib.Bucket
import LaunchPad.Lib.RoundRobin
import LaunchPad.LoadBalancer

/-!
# Turns

As long as the healthy instances stay the same, `getNextInstance` goes round them from wherever the
index was left, also past the end of the list. Every result is counted under the instance's name,
unless that is `__proto__`.
-/

namespace LaunchPad

open Feed Rows

namespace RoundRobinLoadBalancer

variable {A : Type} {lb : RoundRobinLoadBalancer A}

/-! ## One call -/

/-- The healthy instance whose turn it is. -/
def pointed (lb : RoundRobinLoadBalancer A) : Option (UpstreamInstance A) :=
  lb.getHealthyInstances[lb.currentIndex % lb.getHealthyInstances.length]?

theorem pointed_eq_none_iff : lb.pointed = none ↔ ∀ i ∈ lb.instances, i.isHealthy = false := by
  have hnil : lb.pointed = none ↔ lb.getHealthyInstances = [] := by
    rw [pointed, List.getElem?_eq_none_iff]
    constructor
    · intro h
      by_contra hne
      exact absurd (Nat.mod_lt lb.currentIndex (List.length_pos_of_ne_nil hne)) (not_lt.2 h)
    · intro h
      rw [h]
      exact Nat.zero_le _
  rw [hnil, getHealthyInstances, List.filter_eq_nil_iff]
  simp only [Bool.not_eq_true]

theorem getNextInstance_eq : lb.getNextInstance = (lb.pointed, lb.pointed.elim lb fun inst =>
    { lb with
      currentIndex := (lb.currentIndex + 1) % lb.getHealthyInstances.length
      stats := setStat inst.name ((lb.stats.row inst.name).getD 0 + 1) lb.stats }) := by
  unfold getNextInstance
  by_cases h : lb.getHealthyInstances.length = 0
  · have hnone : lb.pointed = none := by
      rw [pointed, List.eq_nil_of_length_eq_zero h]
      rfl
    simp only [dif_pos h, hnone, Option.elim_none]
  · have hsome : lb.pointed = some (lb.getHealthyInstances.get
        ⟨lb.currentIndex % lb.getHealthyInstances.length,
          Nat.mod_lt _ (Nat.pos_of_ne_zero h)⟩) := by
      rw [pointed, List.get_eq_getElem]
      exact List.getElem?_eq_getElem _
    simp only [dif_neg h, hsome, Option.elim_some]

theorem mem_of_pointed {inst : UpstreamInstance A} (h : lb.pointed = some inst) :
    inst ∈ lb.instances ∧ inst.isHealthy = true :=
  List.mem_filter.1 (List.mem_of_getElem? h)

theorem map_name_setHealthy (name : String) (isHealthy : Bool) :
    ∀ is : List (UpstreamInstance A),
      (setHealthy name isHealthy is).map UpstreamInstance.name = is.map UpstreamInstance.name
  | [] => rfl
  | i :: is => by
    simp only [setHealthy]
    split
    · rfl
    · rw [List.map_cons, map_name_setHealthy name isHealthy is, List.map_cons]

/-! ## What a list of calls returns -/

/-- What the calls of `getNextInstance` among these return. -/
def results (lb : RoundRobinLoadBalancer A) (calls : List (BalancerCall A)) :
    List (Option (UpstreamInstance A)) :=
  (answers handle lb calls).filterMap Prod.snd

/-- The names these calls register. -/
def registered : List (BalancerCall A) → List String
  | [] => []
  | .registerInstance name _ :: calls => name :: registered calls
  | .killInstance _ :: calls => registered calls
  | .restoreInstance _ :: calls => registered calls
  | .getNextInstance :: calls => registered calls

theorem registered_append : ∀ calls calls' : List (BalancerCall A),
    registered (calls ++ calls') = registered calls ++ registered calls'
  | [], _ => rfl
  | call :: calls, calls' => by
    have ih := registered_append calls calls'
    cases call <;> simp [registered, ih]

/-- How many of the calls are `getNextInstance`. -/
def turns : List (BalancerCall A) → ℕ
  | [] => 0
  | .getNextInstance :: calls => turns calls + 1
  | .registerInstance _ _ :: calls => turns calls
  | .killInstance _ :: calls => turns calls
  | .restoreInstance _ :: calls => turns calls

theorem results_cons (lb : RoundRobinLoadBalancer A) (call : BalancerCall A)
    (calls : List (BalancerCall A)) :
    results lb (call :: calls) = (handle call lb).1.toList ++ results (handle call lb).2 calls := by
  rw [results, answers, List.filterMap_cons]
  rcases (handle call lb).1 with _ | r <;> rfl

theorem handle_getNextInstance (lb : RoundRobinLoadBalancer A) :
    handle .getNextInstance lb = (some lb.pointed, lb.getNextInstance.2) := by
  simp [handle, getNextInstance_eq]

theorem map_name_endState : ∀ (calls : List (BalancerCall A)) (lb : RoundRobinLoadBalancer A),
    (endState handle lb calls).instances.map UpstreamInstance.name
      = lb.instances.map UpstreamInstance.name ++ registered calls
  | [], lb => (List.append_nil _).symm
  | call :: calls, lb => by
    rw [endState, map_name_endState calls]
    cases call with
    | registerInstance name app => simp [handle, registerInstance, registered]
    | killInstance name => simp [handle, killInstance, registered, map_name_setHealthy]
    | restoreInstance name => simp [handle, restoreInstance, registered, map_name_setHealthy]
    | getNextInstance =>
      rw [handle_getNextInstance, getNextInstance_eq]
      rcases lb.pointed with _ | inst <;> rfl

/-- The results are what was pointed to at the calls. -/
theorem mem_results_iff {r : Option (UpstreamInstance A)} :
    ∀ (calls : List (BalancerCall A)) {lb : RoundRobinLoadBalancer A},
      r ∈ results lb calls ↔ ∃ before, before ++ [.getNextInstance] <+: calls
        ∧ (endState handle lb before).pointed = r
  | [], lb => by simp [results, answers]
  | call :: calls, lb => by
    rw [results_cons, List.mem_append, mem_results_iff calls]
    constructor
    · rintro (h | ⟨before, hpre, hr⟩)
      · cases call with
        | getNextInstance =>
          rw [handle_getNextInstance] at h
          exact ⟨[], by simp, by simpa [eq_comm, endState] using h⟩
        | _ => simp [handle] at h
      · exact ⟨call :: before, by simpa using hpre, hr⟩
    · rintro ⟨before, hpre, hr⟩
      rcases before with _ | ⟨first, before⟩
      · obtain ⟨rfl, -⟩ := List.cons_prefix_cons.1 hpre
        rw [handle_getNextInstance]
        exact .inl (by simpa [endState, eq_comm] using hr)
      · obtain ⟨rfl, hrest⟩ := List.cons_prefix_cons.1 hpre
        exact .inr ⟨before, hrest, hr⟩

/-- An instance that is pointed to has been registered. -/
theorem pointed_ne_proto {calls before : List (BalancerCall A)}
    (h : "__proto__" ∉ registered calls) (hpre : before <+: calls) :
    ∀ inst ∈ (endState handle new before).pointed, inst.name ≠ "__proto__" := by
  rintro inst hinst hname
  obtain ⟨after, rfl⟩ := hpre
  have hmem := List.mem_map_of_mem (f := UpstreamInstance.name) (mem_of_pointed hinst).1
  rw [map_name_endState, hname] at hmem
  rw [registered_append] at h
  exact h (List.mem_append_left _ hmem)

/-! ## Fairness -/

/-- While the healthy instances stay the same, the calls go round them. -/
theorem results_of_same : ∀ (calls : List (BalancerCall A)) (lb : RoundRobinLoadBalancer A)
    {healthy : List (UpstreamInstance A)}, healthy ≠ [] →
    (∀ pre, pre <+: calls → (endState handle lb pre).getHealthyInstances = healthy) →
    results lb calls = (RoundRobin.picks healthy.length lb.currentIndex (turns calls)).map
      (healthy[·]?)
  | [], _, _, _, _ => rfl
  | call :: calls, lb, healthy, hne, hsame => by
    have hnow : lb.getHealthyInstances = healthy := hsame [] List.nil_prefix
    have ih := results_of_same calls (handle call lb).2 hne fun pre hpre =>
      hsame (call :: pre) (List.cons_prefix_cons.2 ⟨rfl, hpre⟩)
    rw [results_cons, ih]
    cases call with
    | getNextInstance =>
      have hindex : (handle .getNextInstance lb).2.currentIndex
          = (lb.currentIndex + 1) % healthy.length := by
        have hpointed : lb.pointed ≠ none := by
          intro hnone
          rw [pointed_eq_none_iff] at hnone
          refine hne (hnow ▸ List.filter_eq_nil_iff.2 fun i hi => ?_)
          simp [hnone i hi]
        obtain ⟨inst, hinst⟩ := Option.ne_none_iff_exists'.1 hpointed
        rw [handle_getNextInstance, getNextInstance_eq, hinst, ← hnow]
        rfl
      rw [hindex, turns, RoundRobin.picks, List.map_cons, handle_getNextInstance, pointed, hnow]
      rfl
    | _ => rfl

/-- So each has its share of the turns. -/
theorem fair_of_same {calls : List (BalancerCall A)} {healthy : List (UpstreamInstance A)}
    (hsame : ∀ pre, pre <+: calls → (endState handle lb pre).getHealthyInstances = healthy)
    (hnames : (healthy.map UpstreamInstance.name).Nodup) {inst : UpstreamInstance A}
    (hinst : inst ∈ healthy) :
    (results lb calls).countP (fun r => r.map UpstreamInstance.name = some inst.name)
        = turns calls / healthy.length
      ∨ (results lb calls).countP (fun r => r.map UpstreamInstance.name = some inst.name)
        = turns calls ⌈/⌉ healthy.length := by
  obtain ⟨i, hi, rfl⟩ := List.getElem_of_mem hinst
  have hcount : (results lb calls).countP
        (fun r => r.map UpstreamInstance.name = some healthy[i].name)
      = (RoundRobin.picks healthy.length lb.currentIndex (turns calls)).count i := by
    rw [results_of_same calls lb (List.ne_nil_of_mem hinst) hsame, List.countP_map, List.count]
    refine List.countP_congr fun j hj => ?_
    have hj := RoundRobin.lt_of_mem_picks (i.zero_le.trans_lt hi) _ hj
    have hname : healthy[j].name = healthy[i].name ↔ j = i := by
      have hinj := @List.Nodup.getElem_inj_iff _ _ hnames j (by simpa using hj) i
        (by simpa using hi)
      simpa using hinj
    simp [List.getElem?_eq_getElem hj, hname]
  rw [hcount]
  exact RoundRobin.count_picks hi _ _

/-! ## The counters -/

/-- Whether a result is counted. -/
def countedAs (r : Option (UpstreamInstance A)) : Bool :=
  r.any fun inst => inst.name ≠ "__proto__"

theorem isSome_of_countedAs {r : Option (UpstreamInstance A)} (h : countedAs r = true) :
    r.isSome = true := by
  rcases r with _ | inst
  · cases h
  · rfl

/-- Where as many are counted as there are, all are. -/
theorem countedAs_of_countP_eq : ∀ {rs : List (Option (UpstreamInstance A))},
    rs.countP countedAs = rs.countP Option.isSome → ∀ r ∈ rs, r.isSome = true → countedAs r = true
  | [], _, _, hr, _ => by cases hr
  | r' :: rs, h, r, hr, hsome => by
    have hle : rs.countP countedAs ≤ rs.countP Option.isSome :=
      List.countP_mono_left fun x _ => isSome_of_countedAs
    rw [List.countP_cons, List.countP_cons] at h
    rcases hcounted : countedAs r' with _ | _
    · -- one that is there and not counted would be missing
      have hnone : r'.isSome = false := by
        by_contra hthere
        rw [Bool.not_eq_false] at hthere
        simp only [hcounted, hthere, if_true, Bool.false_eq_true, if_false] at h
        omega
      simp only [hcounted, hnone, Bool.false_eq_true, if_false] at h
      rcases List.mem_cons.1 hr with rfl | hr
      · rw [hnone] at hsome
        cases hsome
      · exact countedAs_of_countP_eq (by omega) r hr hsome
    · simp only [hcounted, isSome_of_countedAs hcounted, if_true] at h
      rcases List.mem_cons.1 hr with rfl | hr
      · exact hcounted
      · exact countedAs_of_countP_eq (by omega) r hr hsome

/-- Only names that are registered have a counter. -/
def Tallied (lb : RoundRobinLoadBalancer A) : Prop :=
  ∀ name, (lb.stats.row name).isSome → name ∈ lb.instances.map UpstreamInstance.name

theorem isSome_setStat {name name' : String} {count : ℤ} {stats : Table String ℤ}
    (h : ((setStat name count stats).row name').isSome) :
    name' = name ∨ (stats.row name').isSome := by
  unfold setStat at h
  split at h
  · exact .inr h
  · rw [Table.set_row] at h
    split at h
    · exact .inl ‹_›
    · exact .inr h

theorem sum_setStat (name : String) (count : ℤ) (stats : Table String ℤ) :
    (setStat name count stats).sum id = stats.sum id
      + if name = "__proto__" then 0 else count - (stats.row name).getD 0 := by
  unfold setStat
  split
  · exact (add_zero _).symm
  · rw [Table.sum_set]
    rcases stats.row name with _ | old <;> rfl

theorem Tallied.handle (h : Tallied lb) (call : BalancerCall A) : Tallied (handle call lb).2 := by
  cases call with
  | registerInstance name app =>
    intro name' hname
    simp only [RoundRobinLoadBalancer.handle, registerInstance, List.map_append,
      List.mem_append] at hname ⊢
    rcases isSome_setStat hname with rfl | hname
    · exact .inr (by simp)
    · exact .inl (h name' hname)
  | killInstance name | restoreInstance name =>
    intro name' hname
    simpa only [RoundRobinLoadBalancer.handle, killInstance, restoreInstance,
      map_name_setHealthy] using h name' hname
  | getNextInstance =>
    rw [handle_getNextInstance, getNextInstance_eq]
    rcases hpointed : lb.pointed with _ | inst
    · exact h
    · intro name' hname
      rcases isSome_setStat hname with rfl | hname
      · exact List.mem_map_of_mem (mem_of_pointed hpointed).1
      · exact h name' hname

/-- One call adds what it returns to the counters. -/
theorem Tallied.sum_handle (h : Tallied lb) (call : BalancerCall A)
    (hnames : (lb.instances.map UpstreamInstance.name ++ registered [call]).Nodup) :
    (RoundRobinLoadBalancer.handle call lb).2.stats.sum id = lb.stats.sum id
      + (RoundRobinLoadBalancer.handle call lb).1.toList.countP countedAs := by
  cases call with
  | registerInstance name app =>
    have hnew : lb.stats.row name = none := by
      by_contra hsome
      have hmem := h name (Option.isSome_iff_ne_none.2 hsome)
      exact List.disjoint_of_nodup_append hnames hmem (by simp [registered])
    simp only [RoundRobinLoadBalancer.handle, registerInstance, sum_setStat, hnew]
    simp
  | killInstance name | restoreInstance name => exact (add_zero _).symm
  | getNextInstance =>
    rw [handle_getNextInstance, getNextInstance_eq]
    rcases lb.pointed with _ | inst
    · exact (add_zero _).symm
    · simp only [Option.elim_some, sum_setStat]
      by_cases hproto : inst.name = "__proto__" <;> simp [countedAs, hproto]

theorem Tallied.sum_endState : ∀ (calls : List (BalancerCall A)) {lb : RoundRobinLoadBalancer A},
    Tallied lb → (lb.instances.map UpstreamInstance.name ++ registered calls).Nodup →
    (endState RoundRobinLoadBalancer.handle lb calls).stats.sum id
      = lb.stats.sum id + (results lb calls).countP countedAs
  | [], _, _, _ => (add_zero _).symm
  | call :: calls, lb, h, hnames => by
    have hsplit : registered (call :: calls) = registered [call] ++ registered calls := by
      cases call <;> rfl
    rw [hsplit, ← List.append_assoc] at hnames
    have hnames' := map_name_endState [call] lb
    simp only [endState] at hnames'
    have ih := sum_endState calls (h.handle call) (hnames' ▸ hnames)
    rw [endState, ih, results_cons, List.countP_append,
      h.sum_handle call (List.Nodup.of_append_left hnames)]
    push_cast
    ring

end RoundRobinLoadBalancer

open RoundRobinLoadBalancer

/-- What a balancer promises over these calls: at every moment it returns a healthy instance or, if
and only if there is none, nothing; each healthy instance has its share of any calls during which
the healthy instances stay the same; and the counters add up to what was returned. -/
structure SafeAndFair {A : Type} (calls : List (BalancerCall A)) : Prop where
  null_iff : ∀ before, before <+: calls →
    ((endState handle new before).getNextInstance.1 = none
      ↔ ∀ i ∈ (endState handle new before).instances, i.isHealthy = false)
  healthy : ∀ before, before <+: calls →
    ∀ inst ∈ (endState handle new before).getNextInstance.1,
      inst ∈ (endState handle new before).instances ∧ inst.isHealthy = true
  fair : ∀ before stretch, before ++ stretch <+: calls →
    (∀ pre, pre <+: stretch → (endState handle new (before ++ pre)).getHealthyInstances
      = (endState handle new before).getHealthyInstances) →
    ∀ inst ∈ (endState handle new before).getHealthyInstances,
      (results (endState handle new before) stretch).countP
            (fun r => r.map UpstreamInstance.name = some inst.name)
          = turns stretch / (endState handle new before).getHealthyInstances.length
        ∨ (results (endState handle new before) stretch).countP
            (fun r => r.map UpstreamInstance.name = some inst.name)
          = turns stretch ⌈/⌉ (endState handle new before).getHealthyInstances.length
  counters : ∀ before, before <+: calls →
    (endState handle new before).stats.sum id = (results new before).countP Option.isSome

/-- Whatever is registered, killed and restored, under distinct names, the balancer keeps its
promises if and only if the turn never comes to an instance named `__proto__`. -/
theorem round_robin_safe_and_fair_iff {A : Type} (calls : List (BalancerCall A))
    (hnames : (registered calls).Nodup) :
    SafeAndFair calls ↔ ∀ before, before ++ [.getNextInstance] <+: calls →
      ∀ inst ∈ (endState handle new before).pointed, inst.name ≠ "__proto__" := by
  have hregistered : ∀ before, before <+: calls →
      ((endState handle new before).instances.map UpstreamInstance.name).Nodup := by
    rintro before ⟨after, rfl⟩
    rw [registered_append] at hnames
    rw [map_name_endState]
    exact hnames.of_append_left
  have hsum : ∀ before, before <+: calls → (endState handle new before).stats.sum id
      = (results new before).countP countedAs := by
    intro before hbefore
    have hnodup := hregistered before hbefore
    rw [map_name_endState] at hnodup
    have htallied : Tallied (new : RoundRobinLoadBalancer A) := fun name hname => by
      simp [new] at hname
    rw [htallied.sum_endState before hnodup]
    exact zero_add _
  constructor
  · intro h before hbefore inst hinst hproto
    have hmem : some inst ∈ results new (before ++ [.getNextInstance]) :=
      (mem_results_iff _).2 ⟨before, List.prefix_rfl, hinst⟩
    have hcounters := h.counters _ hbefore
    rw [hsum _ hbefore] at hcounters
    have hcounted := countedAs_of_countP_eq (by exact_mod_cast hcounters) _ hmem rfl
    simp [countedAs, hproto] at hcounted
  · intro h
    refine ⟨fun before _ => ?_, fun before _ inst hinst => ?_,
      fun before stretch hpre hsame inst hinst => ?_, fun before hbefore => ?_⟩
    · rw [getNextInstance_eq]
      exact pointed_eq_none_iff
    · rw [getNextInstance_eq] at hinst
      exact mem_of_pointed hinst
    · refine fair_of_same (fun pre hpre => ?_) ?_ hinst
      · rw [← hsame pre hpre, endState_append]
      · have hnodup := hregistered before ((List.prefix_append _ _).trans hpre)
        exact hnodup.sublist (List.filter_sublist.map _)
    · rw [hsum before hbefore]
      have hall : ∀ r ∈ results new before, countedAs r = true ↔ r.isSome = true := by
        refine fun r hr => ⟨isSome_of_countedAs, fun hsome => ?_⟩
        obtain ⟨inst, rfl⟩ := Option.isSome_iff_exists.1 hsome
        obtain ⟨before', hpre, hpointed⟩ := (mem_results_iff before).1 hr
        simpa [countedAs] using h before' (hpre.trans hbefore) inst hpointed
      rw [List.countP_congr hall]

/-- The second of three instances is killed after the first turn, which leaves the index where it
was, and restored. -/
theorem round_robin_safe_and_fair_failover : SafeAndFair (A := Unit)
    [.registerInstance "inst-1" (), .registerInstance "inst-2" (), .registerInstance "inst-3" (),
      .getNextInstance, .killInstance "inst-2", .getNextInstance, .getNextInstance,
      .restoreInstance "inst-2", .getNextInstance] := by
  refine (round_robin_safe_and_fair_iff _ (by decide)).2 fun before hpre => ?_
  exact pointed_ne_proto (by decide) ((List.prefix_append _ _).trans hpre)

/-- What is returned under the name `__proto__` is not counted. -/
theorem proto_not_counted : ¬ SafeAndFair (A := Unit)
    [.registerInstance "__proto__" (), .getNextInstance] := by
  intro h
  have hcounters := h.counters _ List.prefix_rfl
  revert hcounters
  decide +kernel

end LaunchPad
