import LaunchPad.LoadShedder

/-!
# No slot leaks

A response has given its slot back if and only if it has emitted an event, and the limiter counts
those that have not. It takes one more where it counts less than `maxConcurrent`, so it never counts
more than that, rounded up.
-/

namespace LaunchPad

/-- The response has emitted neither event. -/
def AdmittedResponse.pending (r : AdmittedResponse) : Bool := !r.finished && !r.closed

/-- The response has not given its slot back. -/
def AdmittedResponse.holding (r : AdmittedResponse) : Bool := !r.released

namespace ConcurrencyLimiter

/-- What a request does to the counts. -/
theorem tryAcquire_cases (priority : RequestPriority) (l : ConcurrencyLimiter) :
    l.tryAcquire priority = (false, { l with totalShed := l.totalShed + 1 })
      ∨ (l.activeRequests : ℚ) < l.maxConcurrent
        ∧ (priority = .low → l.activeRequests < l.lowPriorityThreshold)
        ∧ l.tryAcquire priority = (true, { l with
            activeRequests := l.activeRequests + 1, totalAdmitted := l.totalAdmitted + 1 }) := by
  unfold tryAcquire
  split
  · exact .inl rfl
  rename_i hbelow
  split
  · exact .inl rfl
  rename_i hlow
  exact .inr ⟨not_le.1 hbelow, fun hp => not_le.1 fun hge => hlow ⟨hp, hge⟩, rfl⟩

theorem release_of_pos {l : ConcurrencyLimiter} (h : 0 < l.activeRequests) :
    l.release = { l with activeRequests := l.activeRequests - 1 } := if_pos h

end ConcurrencyLimiter

namespace LoadShedder

variable (priorityResolver : Option (RoutedRequest → RequestPriority)) {s : LoadShedder}

/-- The limiter counts the responses that hold a slot, which are those that have emitted nothing. -/
structure Counts (maxConcurrent : ℚ) (lowPriorityThreshold : ℤ) (s : LoadShedder) : Prop where
  maxConcurrent_eq : s.limiter.maxConcurrent = maxConcurrent
  threshold_eq : s.limiter.lowPriorityThreshold = lowPriorityThreshold
  holding_eq : ∀ r ∈ s.responses, r.holding = r.pending
  active_eq : s.limiter.activeRequests = s.responses.countP AdmittedResponse.holding
  active_le : s.limiter.activeRequests ≤ ⌈maxConcurrent⌉
  admitted_eq : s.limiter.totalAdmitted = s.responses.length

variable {maxConcurrent : ℚ} {lowPriorityThreshold : ℤ}

theorem counts_unused (h : 0 ≤ maxConcurrent) (lowPriorityThreshold : ℤ) :
    Counts maxConcurrent lowPriorityThreshold
      ⟨.unused maxConcurrent lowPriorityThreshold, []⟩ where
  maxConcurrent_eq := rfl
  threshold_eq := rfl
  holding_eq := by simp
  active_eq := rfl
  active_le := Int.ceil_nonneg h
  admitted_eq := rfl

namespace Counts

theorem arrive (h : Counts maxConcurrent lowPriorityThreshold s) (req : RoutedRequest) :
    Counts maxConcurrent lowPriorityThreshold (middleware priorityResolver req s).2 := by
  unfold middleware
  rcases s.limiter.tryAcquire_cases (priorityResolver.getD defaultPriority req)
    with heq | ⟨hbelow, -, heq⟩ <;> simp only [heq]
  · exact ⟨h.maxConcurrent_eq, h.threshold_eq, h.holding_eq, h.active_eq, h.active_le,
      h.admitted_eq⟩
  · refine ⟨h.maxConcurrent_eq, h.threshold_eq, fun r hr => ?_, ?_, ?_, ?_⟩
    · rcases List.mem_append.1 hr with hr | hr
      · exact h.holding_eq r hr
      · obtain rfl := List.mem_singleton.1 hr
        rfl
    · simp [h.active_eq, List.countP_append, AdmittedResponse.holding]
    · rw [h.maxConcurrent_eq] at hbelow
      exact Int.add_one_le_iff.2 (Int.lt_ceil.2 hbelow)
    · simp [h.admitted_eq]

/-- A response that holds a slot is counted. -/
theorem active_pos (h : Counts maxConcurrent lowPriorityThreshold s) {r : AdmittedResponse}
    (hr : r ∈ s.responses) (hheld : r.holding = true) : 0 < s.limiter.activeRequests := by
  have hpos := List.countP_pos_iff.2 ⟨r, hr, hheld⟩
  rw [h.active_eq]
  exact_mod_cast hpos

/-- An event gives the response's slot back, unless another one has. -/
theorem emit (h : Counts maxConcurrent lowPriorityThreshold s) (response : ℕ)
    {note : AdmittedResponse → AdmittedResponse} (hreleased : ∀ r, (note r).released = r.released)
    (hpending : ∀ r, (note r).pending = false) :
    Counts maxConcurrent lowPriorityThreshold (LoadShedder.emit response note s) := by
  unfold LoadShedder.emit
  rcases hresponse : s.responses[response]? with _ | r
  · exact h
  obtain ⟨hlt, hget⟩ := List.getElem?_eq_some_iff.1 hresponse
  have hmem : r ∈ s.responses := List.mem_of_getElem? hresponse
  have hset : ∀ r' : AdmittedResponse, r'.holding = r'.pending →
      ∀ x ∈ s.responses.set response r', x.holding = x.pending := by
    intro r' hr' x hx
    rcases List.mem_or_eq_of_mem_set hx with hx | rfl
    · exact h.holding_eq x hx
    · exact hr'
  have hcount : ∀ r' : AdmittedResponse, r'.holding = false →
      ((s.responses.set response r').countP AdmittedResponse.holding : ℤ)
        = s.limiter.activeRequests - if r.holding then 1 else 0 := by
    intro r' hr'
    have hle : (if r.holding then 1 else 0) ≤ s.responses.countP AdmittedResponse.holding :=
      hget ▸ List.boole_getElem_le_countP hlt
    rw [List.countP_set hlt, hget, hr', h.active_eq]
    push_cast [hle]
    simp
  unfold releaseOnce
  rcases hheld : r.released with _ | _ <;> simp only [hreleased, hheld]
  · -- it holds a slot, so the limiter counts it and the guard of `release` lets it through
    have hholding : r.holding = true := by simp [AdmittedResponse.holding, hheld]
    rw [Bool.not_false, if_pos rfl,
      ConcurrencyLimiter.release_of_pos (h.active_pos hmem hholding)]
    refine ⟨h.maxConcurrent_eq, h.threshold_eq, hset _ (hpending r).symm, ?_, ?_, ?_⟩
    · simp only [hcount { note r with released := true } rfl, hholding, if_true]
    · exact (sub_le_self _ zero_le_one).trans h.active_le
    · simpa using h.admitted_eq
  · have hholding : ∀ r' : AdmittedResponse, r'.released = true → r'.holding = false :=
      fun r' hr' => by simp [AdmittedResponse.holding, hr']
    have hnoted : (note r).holding = false := hholding _ ((hreleased r).trans hheld)
    rw [Bool.not_true, if_neg Bool.false_ne_true]
    refine ⟨h.maxConcurrent_eq, h.threshold_eq, hset _ (hnoted.trans (hpending r).symm), ?_,
      h.active_le, ?_⟩
    · rw [hcount _ hnoted, hholding r hheld, if_neg Bool.false_ne_true, sub_zero]
    · simpa using h.admitted_eq

theorem step (h : Counts maxConcurrent lowPriorityThreshold s) (event : ShedderEvent) :
    Counts maxConcurrent lowPriorityThreshold (step priorityResolver s event) := by
  cases event with
  | arrive req => exact h.arrive priorityResolver req
  | finish response =>
    exact h.emit response (fun _ => rfl) fun r => by simp [AdmittedResponse.pending]
  | close response =>
    exact h.emit response (fun _ => rfl) fun r => by simp [AdmittedResponse.pending]

theorem run : ∀ (events : List ShedderEvent) {s : LoadShedder},
    Counts maxConcurrent lowPriorityThreshold s →
    Counts maxConcurrent lowPriorityThreshold (run priorityResolver s events)
  | [], _, h => h
  | event :: events, _, h => run events (h.step priorityResolver event)

end Counts

/-! ## What is counted -/

theorem total_middleware (req : RoutedRequest) (s : LoadShedder) :
    (middleware priorityResolver req s).2.limiter.totalAdmitted
        + (middleware priorityResolver req s).2.limiter.totalShed
      = s.limiter.totalAdmitted + s.limiter.totalShed + 1 := by
  unfold middleware
  rcases s.limiter.tryAcquire_cases (priorityResolver.getD defaultPriority req)
    with heq | ⟨-, -, heq⟩ <;> simp only [heq]
  · omega
  · omega

theorem total_emit (response : ℕ) (note : AdmittedResponse → AdmittedResponse) (s : LoadShedder) :
    (LoadShedder.emit response note s).limiter.totalAdmitted = s.limiter.totalAdmitted
      ∧ (LoadShedder.emit response note s).limiter.totalShed = s.limiter.totalShed := by
  unfold LoadShedder.emit releaseOnce ConcurrencyLimiter.release
  rcases s.responses[response]? with _ | r
  · exact ⟨rfl, rfl⟩
  · simp only []
    split
    · split <;> exact ⟨rfl, rfl⟩
    · exact ⟨rfl, rfl⟩

/-- The requests among the events. -/
def arrivals : List ShedderEvent → ℕ
  | [] => 0
  | .arrive _ :: events => arrivals events + 1
  | .finish _ :: events => arrivals events
  | .close _ :: events => arrivals events

/-- Each request is counted once, and nothing else is. -/
theorem total_run : ∀ (events : List ShedderEvent) (s : LoadShedder),
    (run priorityResolver s events).limiter.totalAdmitted
        + (run priorityResolver s events).limiter.totalShed
      = s.limiter.totalAdmitted + s.limiter.totalShed + arrivals events
  | [], s => (add_zero _).symm
  | .arrive req :: events, s => by
    have ih := total_run events (step priorityResolver s (.arrive req))
    have hone := total_middleware priorityResolver req s
    simp only [run, List.foldl_cons, arrivals] at ih ⊢
    simp only [step] at ih ⊢
    push_cast
    omega
  | .finish response :: events, s => by
    have ih := total_run events (step priorityResolver s (.finish response))
    have hone := total_emit response (fun r => { r with finished := true }) s
    simp only [run, List.foldl_cons, arrivals] at ih ⊢
    simp only [step] at ih ⊢
    omega
  | .close response :: events, s => by
    have ih := total_run events (step priorityResolver s (.close response))
    have hone := total_emit response (fun r => { r with closed := true }) s
    simp only [run, List.foldl_cons, arrivals] at ih ⊢
    simp only [step] at ih ⊢
    omega

/-- What holds after these events of a limiter nobody has used. -/
structure NoSlotLeaks (priorityResolver : Option (RoutedRequest → RequestPriority))
    (maxConcurrent : ℚ) (lowPriorityThreshold : ℤ) (events : List ShedderEvent) (s : LoadShedder) :
    Prop where
  active_eq : s.limiter.activeRequests = s.responses.countP AdmittedResponse.pending
  active_le : s.limiter.activeRequests ≤ ⌈maxConcurrent⌉
  guard : ∀ r ∈ s.responses, r.released = false → 0 < s.limiter.activeRequests
  low : ∀ req, priorityResolver.getD defaultPriority req = .low →
    (middleware priorityResolver req s).1 = .next →
    s.limiter.activeRequests < lowPriorityThreshold
  admitted_eq : s.limiter.totalAdmitted = s.responses.length
  counted : s.limiter.totalAdmitted + s.limiter.totalShed = arrivals events

end LoadShedder

open LoadShedder

/-- Whatever the requests and whichever events their responses emit: the limiter counts the ones
that have emitted none, and never more than `maxConcurrent`, rounded up. -/
theorem no_slot_leaks (priorityResolver : Option (RoutedRequest → RequestPriority))
    (maxConcurrent : ℚ) (h : 0 ≤ maxConcurrent) (lowPriorityThreshold : ℤ)
    (events : List ShedderEvent) :
    NoSlotLeaks priorityResolver maxConcurrent lowPriorityThreshold events
      (run priorityResolver ⟨.unused maxConcurrent lowPriorityThreshold, []⟩ events) := by
  have hcounts := Counts.run priorityResolver events (counts_unused h lowPriorityThreshold)
  have htotal := total_run priorityResolver events
    ⟨.unused maxConcurrent lowPriorityThreshold, []⟩
  refine ⟨?_, hcounts.active_le, fun r hr hheld => hcounts.active_pos hr ?_,
    fun req hlow hnext => ?_, hcounts.admitted_eq, ?_⟩
  · rw [hcounts.active_eq, List.countP_congr fun r hr => by rw [hcounts.holding_eq r hr]]
  · simp [AdmittedResponse.holding, hheld]
  · unfold middleware at hnext
    rcases ConcurrencyLimiter.tryAcquire_cases (priorityResolver.getD defaultPriority req)
      (run priorityResolver ⟨.unused maxConcurrent lowPriorityThreshold, []⟩ events).limiter
      with heq | ⟨-, hthreshold, -⟩
    · simp only [heq] at hnext
      cases hnext
    · exact (hthreshold hlow).trans_eq hcounts.threshold_eq
  · simpa [ConcurrencyLimiter.unused] using htotal

/-- Two slots: the third request is shed, the first response closes and finishes, and the next
request is let through. -/
theorem no_slot_leaks_two :
    NoSlotLeaks none 2 1 [.arrive ⟨"POST", "/orders"⟩, .arrive ⟨"GET", "/events/e1"⟩,
        .arrive ⟨"POST", "/orders"⟩, .close 0, .finish 0, .arrive ⟨"PATCH", "/events/e1"⟩]
      (run none ⟨.unused 2 1, []⟩ [.arrive ⟨"POST", "/orders"⟩, .arrive ⟨"GET", "/events/e1"⟩,
        .arrive ⟨"POST", "/orders"⟩, .close 0, .finish 0, .arrive ⟨"PATCH", "/events/e1"⟩]) :=
  no_slot_leaks none 2 (by norm_num) 1 _

/-- Half a slot lets a request through. -/
theorem half_slot_exceeded :
    (0 : ℚ) ≤ 1 / 2
      ∧ ¬ ((run none ⟨.unused (1 / 2) 0, []⟩ [.arrive ⟨"POST", "/orders"⟩]).limiter.activeRequests
        : ℚ) ≤ 1 / 2 := by
  decide +kernel

end LaunchPad
