import LaunchPad.Catalog
import LaunchPad.Coalescer
import LaunchPad.Lib.Serial

/-!
# One execution at a time

Under a key there is the promise of the execution that has started and is not over; while its
function runs there is none, and nobody asks. What is cleaned up after is what the key held: had
another execution started since, it would have found the promise there. So a call shares the
execution it finds or starts one, and gets what becomes of it.
-/

namespace LaunchPad

open Interleave

variable {ε α : Type}

/-! ## What the executions are at -/

section Executions

/-- The execution has started for the key, and is not over. -/
def ActiveOn (executions : List (Execution ε α)) (key : String) (e : ℕ) : Prop :=
  ∃ flight : Flight ε α, executions[e]? = some ⟨key, flight⟩ ∧ flight.Active

/-- Its promise is there for the key. -/
def InFlightOn (executions : List (Execution ε α)) (key : String) (e : ℕ) : Prop :=
  ∃ flight : Flight ε α, executions[e]? = some ⟨key, flight⟩ ∧ flight.Registered

/-- What has become of an execution. -/
def outcomeOf (executions : List (Execution ε α)) (e : ℕ) : Option (Except ε α) :=
  executions[e]?.bind fun x => x.flight.outcome

/-- The caller waits for an execution of its key, or got what has become of it. -/
def Caller.Bound (executions : List (Execution ε α)) (c : Caller ε α) : Prop :=
  ∃ flight : Flight ε α, executions[c.execution]? = some ⟨c.key, flight⟩
    ∧ ∀ r ∈ c.received, flight.outcome = some r

variable {executions : List (Execution ε α)} {key k : String} {e i : ℕ} {f f' g : Flight ε α}

theorem Flight.Registered.active (h : f.Registered) : f.Active := by
  cases f <;> trivial

theorem Flight.Active.outcome_eq (h : f.Active) : f.outcome = none := by
  cases f <;> first | rfl | cases h

theorem InFlightOn.active (h : InFlightOn executions key e) : ActiveOn executions key e :=
  h.imp fun _ h => ⟨h.1, h.2.active⟩

theorem getElem?_moved_iff (hx : executions[e]? = some ⟨key, f⟩) :
    (moved executions e f')[i]? = some ⟨k, g⟩
      ↔ (i = e ∧ k = key ∧ g = f') ∨ (i ≠ e ∧ executions[i]? = some ⟨k, g⟩) := by
  rw [moved, List.getElem?_modify]
  rcases eq_or_ne e i with rfl | hne
  · simp [hx, eq_comm]
  · simp [hne, hne.symm]

theorem getElem?_started_iff :
    (executions ++ [⟨key, f⟩])[i]? = some ⟨k, g⟩
      ↔ executions[i]? = some ⟨k, g⟩ ∨ (i = executions.length ∧ k = key ∧ g = f) := by
  rcases lt_trichotomy i executions.length with hlt | rfl | hgt
  · simp [List.getElem?_append_left hlt, hlt.ne]
  · simp [eq_comm]
  · rw [List.getElem?_eq_none (by rw [List.length_append]; exact hgt),
      List.getElem?_eq_none hgt.le]
    simp [hgt.ne']

/-- What is active after a move was so before. -/
theorem ActiveOn.of_moved (hx : executions[e]? = some ⟨key, f⟩) (hf : f.Active)
    (h : ActiveOn (moved executions e f') k i) : ActiveOn executions k i := by
  obtain ⟨g, hg, hactive⟩ := h
  rcases (getElem?_moved_iff hx).1 hg with ⟨rfl, rfl, -⟩ | ⟨-, hg⟩
  · exact ⟨f, hx, hf⟩
  · exact ⟨g, hg, hactive⟩

theorem inFlightOn_moved_iff (hx : executions[e]? = some ⟨key, f⟩) :
    InFlightOn (moved executions e f') k i
      ↔ (i = e ∧ k = key ∧ f'.Registered) ∨ (i ≠ e ∧ InFlightOn executions k i) := by
  constructor
  · rintro ⟨g, hg, hreg⟩
    rcases (getElem?_moved_iff hx).1 hg with ⟨hi, hk, rfl⟩ | ⟨hi, hg⟩
    · exact .inl ⟨hi, hk, hreg⟩
    · exact .inr ⟨hi, g, hg, hreg⟩
  · rintro (⟨hi, hk, hreg⟩ | ⟨hi, g, hg, hreg⟩)
    · exact ⟨f', (getElem?_moved_iff hx).2 (.inl ⟨hi, hk, rfl⟩), hreg⟩
    · exact ⟨g, (getElem?_moved_iff hx).2 (.inr ⟨hi, hg⟩), hreg⟩

theorem Caller.Bound.moved (hx : executions[e]? = some ⟨key, f⟩) (hf : f.Active) {c : Caller ε α}
    (h : c.Bound executions) : c.Bound (moved executions e f') := by
  obtain ⟨g, hg, hreceived⟩ := h
  rcases eq_or_ne c.execution e with he | he
  · rw [he, hx] at hg
    obtain ⟨hkey, rfl⟩ : key = c.key ∧ f = g := by simpa using hg
    refine ⟨f', (getElem?_moved_iff hx).2 (.inl ⟨he, hkey.symm, rfl⟩), fun r hr => ?_⟩
    -- nothing was received of an execution that is not over
    have := hreceived r hr
    rw [hf.outcome_eq] at this
    cases this
  · exact ⟨g, (getElem?_moved_iff hx).2 (.inr ⟨he, hg⟩), hreceived⟩

end Executions

namespace Coalescing

/-! ## The coalescer and the executions -/

/-- The map holds the promises that are there, one for a key, and the stack the executions whose
functions run. -/
structure Coherent (s : Coalescing ε α) : Prop where
  lookup_iff : ∀ key e,
    s.coalescer.inFlight.lookup key = some e ↔ InFlightOn s.executions key e
  mem_stack_iff : ∀ e, e ∈ s.stack ↔ ∃ key, s.executions[e]? = some ⟨key, .running⟩
  stack_nodup : s.stack.Nodup
  one : ∀ key e e', ActiveOn s.executions key e → ActiveOn s.executions key e' → e = e'
  bound : ∀ c ∈ s.callers, c.Bound s.executions

variable {s s' : Coalescing ε α}

theorem coherent_new : Coherent (new : Coalescing ε α) where
  lookup_iff := by simp [new, RequestCoalescer.new, InFlightOn]
  mem_stack_iff := by simp [new]
  stack_nodup := .nil
  one := by simp [new, ActiveOn]
  bound := by simp [new]

namespace Coherent

theorem key_eq (h : Coherent s) {key k : String} {e : ℕ} {f : Flight ε α}
    (hx : s.executions[e]? = some ⟨key, f⟩) (hk : s.coalescer.inFlight.lookup k = some e) :
    k = key := by
  obtain ⟨g, hg, -⟩ := (h.lookup_iff k e).1 hk
  rw [hx] at hg
  simpa using (congrArg (Option.map Execution.key) hg).symm

/-- Moving an execution on, where the map and the stack follow. -/
theorem moved (h : Coherent s) {key : String} {e : ℕ} {f f' : Flight ε α}
    (hx : s.executions[e]? = some ⟨key, f⟩) (hexec : s'.executions = moved s.executions e f')
    (hcallers : s'.callers = s.callers) (hf : f.Active) (hf' : f' ≠ .running)
    (hlookup : ∀ k i, s'.coalescer.inFlight.lookup k = some i
      ↔ (i = e ∧ k = key ∧ f'.Registered)
        ∨ (i ≠ e ∧ s.coalescer.inFlight.lookup k = some i))
    (hnodup : s'.stack.Nodup) (hstack : ∀ i, i ∈ s'.stack ↔ i ≠ e ∧ i ∈ s.stack) :
    Coherent s' where
  lookup_iff k i := by rw [hlookup, hexec, inFlightOn_moved_iff hx, h.lookup_iff]
  mem_stack_iff i := by
    rw [hstack, h.mem_stack_iff, hexec]
    simp [getElem?_moved_iff hx, hf'.symm]
  stack_nodup := hnodup
  one k i i' hi hi' := by
    rw [hexec] at hi hi'
    exact h.one k i i' (hi.of_moved hx hf) (hi'.of_moved hx hf)
  bound c hc := by
    rw [hcallers] at hc
    rw [hexec]
    exact (h.bound c hc).moved hx hf

theorem join (h : Coherent s) {key : String} {existing : ℕ}
    (hexisting : s.coalescer.inFlight.lookup key = some existing) (n : ℕ) :
    Coherent { s with
      coalescer := { s.coalescer with coalescedCount := n },
      callers := s.callers ++ [⟨key, existing, none⟩] } where
  lookup_iff := h.lookup_iff
  mem_stack_iff := h.mem_stack_iff
  stack_nodup := h.stack_nodup
  one := h.one
  bound c hc := by
    rcases List.mem_append.1 hc with hc | hc
    · exact h.bound c hc
    · obtain rfl := List.mem_singleton.1 hc
      obtain ⟨flight, hx, -⟩ := (h.lookup_iff key existing).1 hexisting
      exact ⟨flight, hx, nofun⟩

/-- Where the key holds no promise and no function runs for it, nothing is active for it. -/
theorem idle (h : Coherent s) {key : String} (hnone : s.coalescer.inFlight.lookup key = none)
    (hre : ¬ ∃ e ∈ s.stack, s.executions[e]?.map Execution.key = some key) (e : ℕ) :
    ¬ ActiveOn s.executions key e := by
  rintro ⟨flight, hx, hactive⟩
  cases flight with
  | running => exact hre ⟨e, (h.mem_stack_iff e).2 ⟨key, hx⟩, by rw [hx]; rfl⟩
  | pending | settled outcome =>
    have hlookup := (h.lookup_iff key e).2 ⟨_, hx, trivial⟩
    rw [hnone] at hlookup
    cases hlookup
  | done outcome | thrown error => cases hactive

theorem start (h : Coherent s) {key : String} (hnone : s.coalescer.inFlight.lookup key = none)
    (hre : ¬ ∃ e ∈ s.stack, s.executions[e]?.map Execution.key = some key) (n : ℕ) :
    Coherent ⟨{ s.coalescer with primaryExecutions := n }, s.executions ++ [⟨key, .running⟩],
      s.callers ++ [⟨key, s.executions.length, none⟩], s.executions.length :: s.stack⟩ := by
  have hlen : ∀ e, ∀ x ∈ s.executions[e]?, e ≠ s.executions.length := by
    rintro e x hx rfl
    simp at hx
  have hidle := h.idle hnone hre
  have hactive : ∀ k e, ActiveOn (s.executions ++ [⟨key, .running⟩]) k e →
      ActiveOn s.executions k e ∨ (e = s.executions.length ∧ k = key) := by
    rintro k e ⟨flight, hx, hactive⟩
    rcases getElem?_started_iff.1 hx with hx | ⟨he, hk, -⟩
    · exact .inl ⟨flight, hx, hactive⟩
    · exact .inr ⟨he, hk⟩
  refine ⟨fun k e => ?_, fun e => ?_, ?_, fun k e e' he he' => ?_, fun c hc => ?_⟩
  · rw [h.lookup_iff]
    simp only [InFlightOn, getElem?_started_iff]
    constructor
    · rintro ⟨flight, hx, hreg⟩
      exact ⟨flight, .inl hx, hreg⟩
    · rintro ⟨flight, hx | ⟨-, -, rfl⟩, hreg⟩
      · exact ⟨flight, hx, hreg⟩
      · cases hreg
  · rw [List.mem_cons, h.mem_stack_iff]
    constructor
    · rintro (rfl | ⟨k, hx⟩)
      · exact ⟨key, getElem?_started_iff.2 (.inr ⟨rfl, rfl, rfl⟩)⟩
      · exact ⟨k, getElem?_started_iff.2 (.inl hx)⟩
    · rintro ⟨k, hx⟩
      rcases getElem?_started_iff.1 hx with hx | ⟨he, -, -⟩
      · exact .inr ⟨k, hx⟩
      · exact .inl he
  · refine List.nodup_cons.2 ⟨fun hmem => ?_, h.stack_nodup⟩
    obtain ⟨k, hx⟩ := (h.mem_stack_iff _).1 hmem
    exact hlen _ _ hx rfl
  · rcases hactive k e he with he | ⟨rfl, rfl⟩ <;> rcases hactive k e' he' with he' | ⟨rfl, hk⟩
    · exact h.one k e e' he he'
    · exact absurd (hk ▸ he) (hidle e)
    · exact absurd he' (hidle e')
    · rfl
  · rcases List.mem_append.1 hc with hc | hc
    · obtain ⟨flight, hx, hreceived⟩ := h.bound c hc
      exact ⟨flight, getElem?_started_iff.2 (.inl hx), hreceived⟩
    · obtain rfl := List.mem_singleton.1 hc
      exact ⟨.running, getElem?_started_iff.2 (.inr ⟨rfl, rfl, rfl⟩), nofun⟩

theorem deliver (h : Coherent s) {caller : ℕ} {c : Caller ε α} {r : Except ε α}
    (hc : s.callers[caller]? = some c) (hr : outcomeOf s.executions c.execution = some r) :
    Coherent { s with
      callers := s.callers.modify caller fun c => { c with received := some r } } where
  lookup_iff := h.lookup_iff
  mem_stack_iff := h.mem_stack_iff
  stack_nodup := h.stack_nodup
  one := h.one
  bound c' hc' := by
    obtain ⟨i, hi⟩ := List.mem_iff_getElem?.1 hc'
    rw [List.getElem?_modify] at hi
    rcases eq_or_ne caller i with rfl | hne
    · obtain rfl : { c with received := some r } = c' := by simpa [hc] using hi
      obtain ⟨flight, hx, -⟩ := h.bound c (List.mem_of_getElem? hc)
      refine ⟨flight, hx, fun r' hr' => ?_⟩
      obtain rfl : r = r' := by simpa using hr'
      simpa [outcomeOf, hx] using hr
    · exact h.bound c' (List.mem_of_getElem? (by simpa [hne] using hi))

/-- The function on top of the stack ends. -/
theorem pop (h : Coherent s) {e : ℕ} {stack : List ℕ} (hstack : s.stack = e :: stack) :
    (∃ key, s.executions[e]? = some ⟨key, .running⟩) ∧ stack.Nodup
      ∧ ∀ i, i ∈ stack ↔ i ≠ e ∧ i ∈ s.stack := by
  have hnodup := h.stack_nodup
  rw [hstack, List.nodup_cons] at hnodup
  refine ⟨(h.mem_stack_iff e).1 (by simp [hstack]), hnodup.2, fun i => ?_⟩
  rw [hstack, List.mem_cons]
  constructor
  · intro hi
    exact ⟨fun he => hnodup.1 (he ▸ hi), .inr hi⟩
  · rintro ⟨hne, he | hi⟩
    · exact absurd he hne
    · exact hi

/-- What does not run is not on the stack. -/
theorem mem_stack_of_ne (h : Coherent s) {key : String} {e : ℕ} {f : Flight ε α}
    (hx : s.executions[e]? = some ⟨key, f⟩) (hf : f ≠ .running) (i : ℕ) :
    i ∈ s.stack ↔ i ≠ e ∧ i ∈ s.stack := by
  refine ⟨fun hi => ⟨?_, hi⟩, fun hi => hi.2⟩
  rintro rfl
  obtain ⟨k, hk⟩ := (h.mem_stack_iff i).1 hi
  rw [hx] at hk
  exact hf (by simpa using (congrArg (Option.map Execution.flight) hk))

theorem returns (h : Coherent s) {key : String} {e : ℕ} {stack : List ℕ}
    (hstack : s.stack = e :: stack) (hx : s.executions[e]? = some ⟨key, .running⟩) :
    Coherent { s with
      coalescer := s.coalescer.register key e,
      executions := LaunchPad.moved s.executions e .pending, stack } := by
  refine h.moved hx rfl rfl trivial nofun (fun k i => ?_) (h.pop hstack).2.1 (h.pop hstack).2.2
  simp only [RequestCoalescer.register, Flight.Registered, and_true]
  rcases eq_or_ne k key with rfl | hk
  · rw [AList.lookup_insert]
    constructor
    · intro hi
      exact .inl ⟨(Option.some.inj hi).symm, rfl⟩
    · rintro (⟨rfl, -⟩ | ⟨hne, hi⟩)
      · rfl
      · -- nothing else is active for the key
        exact absurd (h.one k i e ((h.lookup_iff k i).1 hi).active ⟨_, hx, trivial⟩) hne
  · rw [AList.lookup_insert_ne hk]
    constructor
    · intro hi
      exact .inr ⟨fun he => hk (h.key_eq hx (he ▸ hi)), hi⟩
    · rintro (⟨-, hk'⟩ | ⟨-, hi⟩)
      · exact absurd hk' hk
      · exact hi

theorem throws (h : Coherent s) {key : String} {e : ℕ} {stack : List ℕ} (error : ε)
    (hstack : s.stack = e :: stack) (hx : s.executions[e]? = some ⟨key, .running⟩) :
    Coherent { s with
      executions := LaunchPad.moved s.executions e (.thrown error), stack } := by
  refine h.moved hx rfl rfl trivial nofun (fun k i => ?_) (h.pop hstack).2.1 (h.pop hstack).2.2
  constructor
  · intro hi
    refine .inr ⟨?_, hi⟩
    rintro rfl
    -- its promise was never there
    obtain ⟨flight, hflight, hreg⟩ := (h.lookup_iff k i).1 hi
    rw [hx] at hflight
    obtain ⟨-, rfl⟩ : key = k ∧ .running = flight := by simpa using hflight
    cases hreg
  · rintro (⟨-, -, hreg⟩ | ⟨-, hi⟩)
    · cases hreg
    · exact hi

theorem settle (h : Coherent s) {key : String} {e : ℕ} (outcome : Except ε α)
    (hx : s.executions[e]? = some ⟨key, .pending⟩) :
    Coherent { s with executions := LaunchPad.moved s.executions e (.settled outcome) } := by
  refine h.moved hx rfl rfl trivial nofun (fun k i => ?_) h.stack_nodup
    (h.mem_stack_of_ne hx nofun)
  constructor
  · intro hi
    rcases eq_or_ne i e with rfl | hne
    · exact .inl ⟨rfl, h.key_eq hx hi, trivial⟩
    · exact .inr ⟨hne, hi⟩
  · rintro (⟨rfl, rfl, -⟩ | ⟨-, hi⟩)
    · exact (h.lookup_iff k i).2 ⟨_, hx, trivial⟩
    · exact hi

/-- What the key held was this execution. -/
theorem cleanUp (h : Coherent s) {key : String} {e : ℕ} {outcome : Except ε α}
    (hx : s.executions[e]? = some ⟨key, .settled outcome⟩) :
    Coherent { s with
      coalescer := s.coalescer.cleanUp key,
      executions := LaunchPad.moved s.executions e (.done outcome) } := by
  refine h.moved hx rfl rfl trivial nofun (fun k i => ?_) h.stack_nodup
    (h.mem_stack_of_ne hx nofun)
  simp only [RequestCoalescer.cleanUp, Flight.Registered, and_false, false_or]
  rcases eq_or_ne k key with rfl | hk
  · rw [AList.lookup_erase]
    constructor
    · nofun
    · rintro ⟨hne, hi⟩
      have he := (h.lookup_iff k e).2 ⟨_, hx, trivial⟩
      rw [hi] at he
      exact absurd (Option.some.inj he) hne
  · rw [AList.lookup_erase_ne hk]
    constructor
    · intro hi
      exact ⟨fun he => hk (h.key_eq hx (he ▸ hi)), hi⟩
    · exact And.right

/-- One event keeps the coalescer and the executions together. -/
theorem step (h : Coherent s) {event : CoalescerEvent ε α} (hs : step event s = some s')
    (hre : ¬ event.Reenters s) : Coherent s' := by
  cases event with
  | call key =>
    simp only [Coalescing.step, RequestCoalescer.enter] at hs
    rcases hlookup : s.coalescer.inFlight.lookup key with _ | existing <;>
      simp only [hlookup, Option.some.injEq] at hs <;> subst hs
    · exact h.start hlookup hre _
    · exact h.join hlookup _
  | returns =>
    simp only [Coalescing.step] at hs
    rcases hstack : s.stack with _ | ⟨e, stack⟩ <;> simp only [hstack] at hs
    · cases hs
    obtain ⟨key, hx⟩ := (h.pop hstack).1
    simp only [hx, Option.map_some, Option.some.injEq] at hs
    exact hs ▸ h.returns hstack hx
  | throws error =>
    simp only [Coalescing.step] at hs
    rcases hstack : s.stack with _ | ⟨e, stack⟩ <;> simp only [hstack] at hs
    · cases hs
    obtain ⟨key, hx⟩ := (h.pop hstack).1
    exact Option.some.inj hs ▸ h.throws error hstack hx
  | settle e outcome =>
    simp only [Coalescing.step] at hs
    split at hs
    · rename_i key hx
      exact Option.some.inj hs ▸ h.settle outcome hx
    · cases hs
  | cleanUp e =>
    simp only [Coalescing.step] at hs
    split at hs
    · rename_i key outcome hx
      exact Option.some.inj hs ▸ h.cleanUp hx
    · cases hs
  | deliver caller =>
    simp only [Coalescing.step] at hs
    split at hs
    · rename_i key e hc
      obtain ⟨r, hr, rfl⟩ := Option.map_eq_some_iff.1 hs
      exact h.deliver hc hr
    · cases hs
  | resetStats =>
    obtain rfl := Option.some.inj hs
    exact ⟨h.lookup_iff, h.mem_stack_iff, h.stack_nodup, h.one, h.bound⟩

end Coherent

/-! ## The calls -/

/-- An event counts as a call, or starts the count again. -/
theorem calls_step {event : CoalescerEvent ε α} (hs : step event s = some s') :
    s'.coalescer.primaryExecutions + s'.coalescer.coalescedCount
      = event.count (s.coalescer.primaryExecutions + s.coalescer.coalescedCount) := by
  cases event with
  | call key =>
    simp only [step, RequestCoalescer.enter] at hs
    rcases hlookup : s.coalescer.inFlight.lookup key with _ | existing <;>
      simp only [hlookup, Option.some.injEq] at hs <;> subst hs <;>
      simp only [CoalescerEvent.count] <;> omega
  | resetStats =>
    obtain rfl := Option.some.inj hs
    rfl
  | returns =>
    simp only [step] at hs
    split at hs
    · obtain ⟨x, -, rfl⟩ := Option.map_eq_some_iff.1 hs
      rfl
    · cases hs
  | deliver caller =>
    simp only [step] at hs
    split at hs
    · obtain ⟨r, -, rfl⟩ := Option.map_eq_some_iff.1 hs
      rfl
    · cases hs
  | throws error | settle e outcome | cleanUp e =>
    simp only [step] at hs
    split at hs
    · obtain rfl := Option.some.inj hs
      rfl
    · cases hs

/-- A caller stays bound to its execution. -/
theorem caller_step {event : CoalescerEvent ε α} (hs : step event s = some s') {i : ℕ}
    {key : String} {e : ℕ} (hc : ∃ r, s.callers[i]? = some ⟨key, e, r⟩) :
    ∃ r, s'.callers[i]? = some ⟨key, e, r⟩ := by
  obtain ⟨r, hc⟩ := hc
  have hlt : i < s.callers.length := (List.getElem?_eq_some_iff.1 hc).1
  cases event with
  | call key' =>
    simp only [step, RequestCoalescer.enter] at hs
    rcases hlookup : s.coalescer.inFlight.lookup key' with _ | existing <;>
      simp only [hlookup, Option.some.injEq] at hs <;> subst hs <;>
      exact ⟨r, by rwa [List.getElem?_append_left hlt]⟩
  | resetStats =>
    obtain rfl := Option.some.inj hs
    exact ⟨r, hc⟩
  | returns =>
    simp only [step] at hs
    split at hs
    · obtain ⟨x, -, rfl⟩ := Option.map_eq_some_iff.1 hs
      exact ⟨r, hc⟩
    · cases hs
  | deliver caller =>
    simp only [step] at hs
    split at hs
    · obtain ⟨outcome, -, rfl⟩ := Option.map_eq_some_iff.1 hs
      rw [List.getElem?_modify, hc]
      rcases eq_or_ne caller i with rfl | hne
      · exact ⟨some outcome, by simp⟩
      · exact ⟨r, by simp [hne]⟩
    · cases hs
  | throws error | settle e' outcome | cleanUp e' =>
    simp only [step] at hs
    split at hs
    · obtain rfl := Option.some.inj hs
      exact ⟨r, hc⟩
    · cases hs

/-- What a call is bound to: the execution whose promise is there for its key or, where nothing is
active for the key, the next one. -/
theorem Coherent.bound_call (h : Coherent s) {key : String}
    (hs : Coalescing.step (.call key) s = some s')
    (hre : ¬ (CoalescerEvent.call key : CoalescerEvent ε α).Reenters s) :
    ∃ e, s'.callers[s.callers.length]? = some ⟨key, e, none⟩
      ∧ (InFlightOn s.executions key e
        ∨ e = s.executions.length ∧ (∀ e', ¬ ActiveOn s.executions key e')
          ∧ s'.executions[e]? = some ⟨key, .running⟩) := by
  simp only [Coalescing.step, RequestCoalescer.enter] at hs
  rcases hlookup : s.coalescer.inFlight.lookup key with _ | existing <;>
    simp only [hlookup, Option.some.injEq] at hs <;> subst hs
  · exact ⟨s.executions.length, by simp, .inr ⟨rfl, h.idle hlookup hre, by simp⟩⟩
  · exact ⟨existing, by simp, .inl ((h.lookup_iff key existing).1 hlookup)⟩

/-- A caller that got nothing waits for the function it asked for, for the callback that is due
then, or for its own. -/
theorem Coherent.owed (h : Coherent s) {i : ℕ} {c : Caller ε α} (hc : s.callers[i]? = some c)
    (hnone : c.received = none) :
    s.executions[c.execution]? = some ⟨c.key, .running⟩
      ∨ s.executions[c.execution]? = some ⟨c.key, .pending⟩
      ∨ (Coalescing.step (.cleanUp c.execution) s).isSome
      ∨ (Coalescing.step (.deliver i) s).isSome := by
  obtain ⟨flight, hx, -⟩ := h.bound c (List.mem_of_getElem? hc)
  obtain ⟨key, e, received⟩ := c
  obtain rfl : received = none := hnone
  cases flight with
  | running => exact .inl hx
  | pending => exact .inr (.inl hx)
  | settled outcome => exact .inr (.inr (.inl (by simp [Coalescing.step, hx])))
  | done outcome | thrown error =>
    exact .inr (.inr (.inr (by simp [Coalescing.step, hc, hx, Flight.outcome])))

/-- A run of events from a new coalescer, in which no function calls `do` for its own key before it
returns. -/
def Run (events : List (CoalescerEvent ε α)) (s : Coalescing ε α) : Prop :=
  Serial (fun event s s' => step event s = some s' ∧ ¬ event.Reenters s) new events s

theorem Run.coherent {events : List (CoalescerEvent ε α)} (h : Run events s) : Coherent s :=
  h.invariant (fun _ _ _ hs hcoherent => hcoherent.step hs.1 hs.2) coherent_new

theorem Run.calls {events : List (CoalescerEvent ε α)} (h : Run events s) :
    s.coalescer.primaryExecutions + s.coalescer.coalescedCount = callsSinceReset events := by
  have hfold : ∀ {t t' : Coalescing ε α} {events : List (CoalescerEvent ε α)},
      Serial (fun event s s' => step event s = some s' ∧ ¬ event.Reenters s) t events t' →
      t'.coalescer.primaryExecutions + t'.coalescer.coalescedCount = events.foldl
        CoalescerEvent.count (t.coalescer.primaryExecutions + t.coalescer.coalescedCount) := by
    intro t t' events h
    induction h with
    | nil => rfl
    | cons hs _ ih => rw [ih, calls_step hs.1, List.foldl_cons]
  exact hfold h

/-- What single flight means after these events. -/
structure SingleFlight (events : List (CoalescerEvent ε α)) (s : Coalescing ε α) : Prop where
  one : ∀ key e e', ActiveOn s.executions key e → ActiveOn s.executions key e' → e = e'
  lookup_iff : ∀ key e,
    s.coalescer.inFlight.lookup key = some e ↔ InFlightOn s.executions key e
  mem_iff : s.stack = [] →
    ∀ key, key ∈ s.coalescer.inFlight ↔ ∃ e, ActiveOn s.executions key e
  received : ∀ c ∈ s.callers, ∀ r ∈ c.received, outcomeOf s.executions c.execution = some r
  owed : ∀ i c, s.callers[i]? = some c → c.received = none →
    s.executions[c.execution]? = some ⟨c.key, .running⟩
      ∨ s.executions[c.execution]? = some ⟨c.key, .pending⟩
      ∨ (step (.cleanUp c.execution) s).isSome ∨ (step (.deliver i) s).isSome
  calls : ∀ before key after, events = before ++ .call key :: after →
    ∃ s₁, Run before s₁ ∧ ∃ e r, s.callers[s₁.callers.length]? = some ⟨key, e, r⟩
      ∧ (InFlightOn s₁.executions key e
        ∨ e = s₁.executions.length ∧ ∀ e', ¬ ActiveOn s₁.executions key e')
      ∧ ∀ e', outcomeOf s₁.executions e' ≠ none → e ≠ e'
  counted : s.coalescer.getStats.primaryExecutions + s.coalescer.getStats.coalescedCount
    = callsSinceReset events

end Coalescing

open Coalescing

/-- Whatever is called when, and whatever the functions come to: a key has one execution at a time,
whose outcome everyone gets who asked for the key in that time and nobody else. -/
theorem single_flight (events : List (CoalescerEvent ε α)) (s : Coalescing ε α)
    (h : Run events s) : SingleFlight events s := by
  have hcoherent := h.coherent
  refine ⟨hcoherent.one, hcoherent.lookup_iff, fun hstack key => ?_, fun c hc r hr => ?_,
    fun i c hc hnone => hcoherent.owed hc hnone, fun before key after heq => ?_, h.calls⟩
  · rw [← AList.lookup_isSome, Option.isSome_iff_exists]
    refine exists_congr fun e => (hcoherent.lookup_iff key e).trans ⟨InFlightOn.active, ?_⟩
    rintro ⟨flight, hx, hactive⟩
    cases flight with
    | running =>
      have hmem := (hcoherent.mem_stack_iff e).2 ⟨key, hx⟩
      rw [hstack] at hmem
      cases hmem
    | pending | settled outcome => exact ⟨_, hx, trivial⟩
    | done outcome | thrown error => cases hactive
  · obtain ⟨flight, hx, hreceived⟩ := hcoherent.bound c hc
    rw [outcomeOf, hx]
    exact hreceived r hr
  · subst heq
    obtain ⟨s₁, hbefore, hafter⟩ := Serial.split h
    obtain _ | ⟨⟨hcall, hre⟩, hafter⟩ := hafter
    have hcoherent₁ : Coherent s₁ := Run.coherent hbefore
    obtain ⟨e, hc, hbound⟩ := hcoherent₁.bound_call hcall hre
    obtain ⟨r, hr⟩ := hafter.invariant
      (I := fun t => ∃ r, t.callers[s₁.callers.length]? = some ⟨key, e, r⟩)
      (fun _ _ _ hs hc => caller_step hs.1 hc) ⟨none, hc⟩
    refine ⟨s₁, hbefore, e, r, hr, hbound.imp id fun h => ⟨h.1, h.2.1⟩, ?_⟩
    rintro e' hover rfl
    rcases hbound with ⟨flight, hx, hreg⟩ | ⟨rfl, -⟩
    · exact hover (by simpa [outcomeOf, hx] using hreg.active.outcome_eq)
    · simp [outcomeOf] at hover

/-- While its function runs, a load starts another one; a second caller joins the first, which is
rejected, and a third comes after that. -/
theorem single_flight_nested : ∃ s : Coalescing String ℕ,
    Run [.call "a", .call "b", .returns, .returns, .call "a", .settle 0 (.error "down"),
        .cleanUp 0, .deliver 2, .call "a"] s
      ∧ SingleFlight [.call "a", .call "b", .returns, .returns, .call "a",
        .settle 0 (.error "down"), .cleanUp 0, .deliver 2, .call "a"] s :=
  have h := .cons ⟨rfl, by decide⟩ (.cons ⟨rfl, by decide⟩ (.cons ⟨rfl, by decide⟩
    (.cons ⟨rfl, by decide⟩ (.cons ⟨rfl, by decide⟩ (.cons ⟨rfl, by decide⟩
      (.cons ⟨rfl, by decide⟩ (.cons ⟨rfl, by decide⟩ (.cons ⟨rfl, by decide⟩ .nil))))))))
  ⟨_, h, single_flight _ _ h⟩

/-! ## The loads of the catalog -/

section Catalog

variable {τ ι : Type} [DecidableEq ι]

/-- The coalescer of an instance holds what its requests find there. -/
def RequestCoalescer.Holds (c : RequestCoalescer τ) (w : CatalogWorld τ ι) (inst : ι) : Prop :=
  ∀ key, c.inFlight.lookup key = w.inFlight inst key

/-- A `do` after which no other call comes before its function returns. -/
def RequestCoalescer.enterAndRegister (self : τ) (key : String) (c : RequestCoalescer τ) :
    RequestCoalescer τ :=
  (c.enter key).1.elim ((c.enter key).2.register key self) fun _ => (c.enter key).2

/-- A load's first statement comes after its function has returned, so a request that joins or
starts one is a `do` as a whole. -/
theorem RequestCoalescer.holds_join {c : RequestCoalescer τ} {w : CatalogWorld τ ι} {inst : ι}
    (h : c.Holds w inst) (self : τ) (key : String) :
    ∃ w', join self inst key w = some (.ok (c.enter key).1, w')
      ∧ (c.enterAndRegister self key).Holds w' inst := by
  rcases hfound : w.inFlight inst key with _ | existing
  · have henter : c.enter key = (none, { c with primaryExecutions := c.primaryExecutions + 1 }) := by
      simp only [enter, h key, hfound]
    rw [enterAndRegister, henter]
    refine ⟨_, by simp only [join, hfound]; rfl, fun key' => ?_⟩
    rcases eq_or_ne key' key with rfl | hne
    · simp [register]
    · simpa [register, AList.lookup_insert_ne hne, hne] using h key'
  · have henter : c.enter key
        = (some existing, { c with coalescedCount := c.coalescedCount + 1 }) := by
      simp only [enter, h key, hfound]
    rw [enterAndRegister, henter]
    exact ⟨w, by simp only [join, hfound], h⟩

theorem RequestCoalescer.holds_settle [DecidableEq τ] {c : RequestCoalescer τ}
    {w : CatalogWorld τ ι} {inst : ι} (h : c.Holds w inst) (self : τ) (key : String)
    (r : Except CatalogError (Option EventResponseDTO)) :
    ∃ w', settle self inst key r w = some (.ok (), w') ∧ (c.cleanUp key).Holds w' inst := by
  refine ⟨_, rfl, fun key' => ?_⟩
  rcases eq_or_ne key' key with rfl | hne
  · simp [cleanUp]
  · simpa [cleanUp, AList.lookup_erase_ne hne, hne] using h key'

end Catalog

end LaunchPad
