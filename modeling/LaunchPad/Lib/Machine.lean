import LaunchPad.Lib.Protocol
import Mathlib.Data.List.Induction

/-!
# Machines

A machine says of each thread, phase and world what the thread's next segment does: the world it
leaves and the phase it is in then. A program runs a machine when each of its segments is the
machine's move (`Machine.Runs`). The history of a run tells the phase of every thread
(`Machine.phases`), and is a trace of the machine (`Machine.trace_of_run`), so what holds along
every trace holds along every run.
-/

namespace Interleave

variable {W ε α β σ τ : Type}

structure Machine (τ σ W : Type) where
  start : τ → σ
  move : τ → σ → W → Option (W × σ)

namespace Machine

variable [DecidableEq τ] (M : Machine τ σ W)

/-- The phases after one more step. -/
def advance (φ : τ → σ) (s : Taken τ W) : τ → σ :=
  Function.update φ s.thread
    (((M.move s.thread (φ s.thread) s.before).map Prod.snd).getD (φ s.thread))

/-- Where the steps have taken each thread. -/
def phases (h : List (Taken τ W)) : τ → σ := h.foldl M.advance M.start

@[simp] theorem phases_nil : M.phases [] = M.start := rfl

@[simp] theorem phases_snoc (h : List (Taken τ W)) (s : Taken τ W) :
    M.phases (h ++ [s]) = M.advance (M.phases h) s := by
  simp [phases, List.foldl_append]

variable {M}

theorem advance_of_move {φ : τ → σ} {t : τ} {w w' : W} {p : σ}
    (hm : M.move t (φ t) w = some (w', p)) : M.advance φ ⟨t, w, w'⟩ = Function.update φ t p := by
  simp [advance, hm]

/-- A thread that has taken no step is where it started. -/
theorem phases_of_stepsOf_nil {t : τ} {h : List (Taken τ W)} (hn : stepsOf t h = []) :
    M.phases h t = M.start t := by
  induction h using List.reverseRecOn with
  | nil => rfl
  | append_singleton h s ih =>
    rcases eq_or_ne s.thread t with rfl | hne
    · rw [stepsOf_snoc_self] at hn
      simp at hn
    · rw [stepsOf_snoc_of_ne hne] at hn
      rw [phases_snoc, advance, Function.update_of_ne hne.symm, ih hn]

/-! ## Traces -/

variable (M) in
/-- These steps are moves of the machine, and lead from `w₀` to `w`. -/
inductive Trace (w₀ : W) : List (Taken τ W) → W → Prop
  | nil : Trace w₀ [] w₀
  | snoc {h : List (Taken τ W)} {w w' : W} {t : τ} {p : σ} (ht : Trace w₀ h w)
      (hm : M.move t (M.phases h t) w = some (w', p)) : Trace w₀ (h ++ [⟨t, w, w'⟩]) w'

theorem Trace.world_unique {w₀ w w' : W} {h : List (Taken τ W)} (ht : M.Trace w₀ h w)
    (ht' : M.Trace w₀ h w') : w = w' := by
  generalize hh : h = h' at ht'
  cases ht with
  | nil =>
    cases ht' with
    | nil => rfl
    | snoc => simp at hh
  | snoc =>
    cases ht' with
    | nil => simp at hh
    | snoc =>
      obtain ⟨-, he⟩ := List.append_inj' hh rfl
      exact congrArg Taken.after (List.singleton_inj.1 he)

/-- The step a trace took after its first ones. -/
theorem Trace.step_of_prefix {w₀ w : W} {h : List (Taken τ W)} (ht : M.Trace w₀ h w)
    {h₁ : List (Taken τ W)} {s : Taken τ W} (hp : h₁ ++ [s] <+: h) :
    M.Trace w₀ h₁ s.before
      ∧ ∃ p, M.move s.thread (M.phases h₁ s.thread) s.before = some (s.after, p) := by
  induction ht with
  | nil =>
    have hlen := hp.length_le
    simp at hlen
  | snoc ht hm ih =>
    rcases List.prefix_concat_iff.1 hp with he | hp'
    · obtain ⟨rfl, he'⟩ := List.append_inj' he rfl
      obtain rfl := List.singleton_inj.1 he'
      exact ⟨ht, _, hm⟩
    · exact ih hp'

/-- The trace of the first steps. -/
theorem Trace.initial {w₀ w : W} {h h₁ : List (Taken τ W)} (ht : M.Trace w₀ h w)
    (hp : h₁ <+: h) : ∃ w₁, M.Trace w₀ h₁ w₁ := by
  induction ht with
  | nil =>
    obtain rfl := List.prefix_nil.1 hp
    exact ⟨w₀, .nil⟩
  | snoc ht hm ih =>
    rcases List.prefix_concat_iff.1 hp with rfl | hp'
    · exact ⟨_, .snoc ht hm⟩
    · exact ih hp'

/-- A thread that has left its first phase is where its last step took it. -/
theorem Trace.last_step {w₀ w : W} {h : List (Taken τ W)} (ht : M.Trace w₀ h w) {t : τ}
    (hne : M.phases h t ≠ M.start t) :
    ∃ h₁ s, h₁ ++ [s] <+: h ∧ stepsOf t h = stepsOf t h₁ ++ [s] ∧ M.Trace w₀ h₁ s.before
      ∧ M.move t (M.phases h₁ t) s.before = some (s.after, M.phases h t) := by
  induction ht with
  | nil => exact absurd rfl hne
  | @snoc h w w' i p ht hm ih =>
    rw [phases_snoc, advance_of_move hm] at hne ⊢
    rcases eq_or_ne i t with rfl | hi
    · rw [Function.update_self]
      exact ⟨h, _, List.prefix_rfl, stepsOf_snoc_self (s := ⟨i, w, w'⟩), ht, hm⟩
    · rw [Function.update_of_ne hi.symm] at hne ⊢
      obtain ⟨h₁, s, hp, hsteps, htrace, hmove⟩ := ih hne
      rw [stepsOf_snoc_of_ne hi]
      exact ⟨h₁, s, hp.trans (List.prefix_append _ _), hsteps, htrace, hmove⟩

/-- Where a move keeps `P` just if it is good: `P` holds after each step of a trace just if all of
them are good. -/
theorem Trace.iff_good {w₀ : W} {P : List (Taken τ W) → W → Prop}
    {G : List (Taken τ W) → Taken τ W → Prop} (hP₀ : P [] w₀)
    (hgood : ∀ h w t w' p, M.Trace w₀ h w → P h w → M.move t (M.phases h t) w = some (w', p) →
      (P (h ++ [⟨t, w, w'⟩]) w' ↔ G h ⟨t, w, w'⟩))
    {h : List (Taken τ W)} {w : W} (ht : M.Trace w₀ h w) :
    (∀ h₁ w₁, h₁ <+: h → M.Trace w₀ h₁ w₁ → P h₁ w₁) ↔ ∀ h₁ s, h₁ ++ [s] <+: h → G h₁ s := by
  constructor
  · intro hP h₁ s hp
    obtain ⟨ht₁, p, hm⟩ := ht.step_of_prefix hp
    exact (hgood h₁ _ _ _ p ht₁ (hP h₁ _ ((List.prefix_append _ _).trans hp) ht₁) hm).1
      (hP _ _ hp (ht₁.snoc hm))
  · intro hG h₁ w₁ hp ht₁
    induction ht₁ with
    | nil => exact hP₀
    | snoc ht₂ hm ih =>
      exact (hgood _ _ _ _ _ ht₂ (ih ((List.prefix_append _ _).trans hp)) hm).2 (hG _ _ hp)

/-- Where each move uses up some of a thread's rank, its steps are bounded by the rank it started
with. -/
theorem Trace.steps_add_rank_le (rank : τ → σ → ℕ)
    (hrank : ∀ t s w w' s', M.move t s w = some (w', s') → rank t s' < rank t s)
    {w₀ w : W} {h : List (Taken τ W)} (ht : M.Trace w₀ h w) (t : τ) :
    (stepsOf t h).length + rank t (M.phases h t) ≤ rank t (M.start t) := by
  induction ht with
  | nil => simp
  | @snoc h w w' i p ht hm ih =>
    rw [phases_snoc, advance_of_move hm]
    rcases eq_or_ne i t with rfl | hne
    · have hlt := hrank _ _ _ _ _ hm
      have hsteps : stepsOf i (h ++ [⟨i, w, w'⟩]) = stepsOf i h ++ [⟨i, w, w'⟩] :=
        stepsOf_snoc_self (s := ⟨i, w, w'⟩)
      rw [hsteps, Function.update_self, List.length_append, List.length_singleton]
      omega
    · rw [stepsOf_snoc_of_ne hne, Function.update_of_ne hne.symm]
      exact ih

/-! ## Programs -/

variable (M) in
/-- Each segment of the program is the move of `t`, from phase `s` on, waits where the move does, and
what the program ends with fits its phase. -/
def Runs (t : τ) (F : Except ε α → σ → Prop) : Async W ε α → σ → Prop
  | .ret r, s => F r s
  | .step act k, s => (∀ w, act w = none → M.move t s w = none)
      ∧ ∀ w b w', act w = some (b, w') → ∃ s', M.move t s w = some (w', s') ∧ Runs t F (k b) s'

namespace Runs

omit [DecidableEq τ]

variable {t : τ} {F : Except ε α → σ → Prop} {s : σ}

theorem pure {a : α} (h : F (.ok a) s) : M.Runs t F (Pure.pure a : Async W ε α) s := h

theorem throw {e : ε} (h : F (.error e) s) : M.Runs t F (MonadExcept.throw e : Async W ε α) s := h

theorem bind {x : Async W ε β} {f : β → Async W ε α} {K : Except ε β → σ → Prop}
    (hx : M.Runs t K x s) (hf : ∀ b s', K (.ok b) s' → M.Runs t F (f b) s')
    (he : ∀ e s', K (.error e) s' → F (.error e) s') : M.Runs t F (x >>= f) s := by
  change M.Runs t F (x.bind f) s
  induction x generalizing s with
  | ret r =>
    cases r with
    | ok b => exact hf b s hx
    | error e => exact he e s hx
  | step act k ih =>
    refine ⟨hx.1, fun w b w' hs => ?_⟩
    obtain ⟨s', hm, hk⟩ := hx.2 w b w' hs
    exact ⟨s', hm, ih b hk⟩

theorem tryCatch {x : Async W ε α} {h : ε → Async W ε α} {K : Except ε α → σ → Prop}
    (hx : M.Runs t K x s) (ho : ∀ a s', K (.ok a) s' → F (.ok a) s')
    (hh : ∀ e s', K (.error e) s' → M.Runs t F (h e) s') :
    M.Runs t F (MonadExcept.tryCatch x h) s := by
  change M.Runs t F (x.tryCatch h) s
  induction x generalizing s with
  | ret r =>
    cases r with
    | ok a => exact ho a s hx
    | error e => exact hh e s hx
  | step act k ih =>
    refine ⟨hx.1, fun w b w' hs => ?_⟩
    obtain ⟨s', hm, hk⟩ := hx.2 w b w' hs
    exact ⟨s', hm, ih b hk⟩

theorem follows {p : Async W ε α} (h : M.Runs t F p s) :
    Follows (fun s w w' s' => M.move t s w = some (w', s')) F p s := by
  induction p generalizing s with
  | ret r => exact h
  | step act k ih =>
    intro w b w' hs
    obtain ⟨s', hm, hk⟩ := h.2 w b w' hs
    exact ⟨s', hm, ih b hk⟩

theorem of_result {p : Async W ε α} {r : Except ε α} (h : M.Runs t F p s)
    (hr : p.result = some r) : F r s :=
  h.follows.of_result hr

end Runs

/-- A segment as a move: the phase it leaves the thread in when it answers, and when it throws. -/
def segment (x : Sync W ε β) (ok : β → σ) (err : ε → σ) (w : W) : Option (W × σ) :=
  (x w).map fun p => (p.2, match p.1 with
    | .ok b => ok b
    | .error e => err e)

theorem segment_eq_some {x : Sync W ε β} {ok : β → σ} {err : ε → σ} {w w' : W} {s : σ} :
    segment x ok err w = some (w', s) ↔
      (∃ b, x w = some (.ok b, w') ∧ s = ok b) ∨ ∃ e, x w = some (.error e, w') ∧ s = err e := by
  unfold segment
  rcases x w with _ | ⟨e | b, w₁⟩
  · simp
  · simp only [Option.map_some, Option.some.injEq, Prod.mk.injEq, reduceCtorEq, false_and,
      exists_false, false_or, Except.error.injEq]
    constructor
    · rintro ⟨rfl, rfl⟩
      exact ⟨e, ⟨rfl, rfl⟩, rfl⟩
    · rintro ⟨_, ⟨rfl, rfl⟩, rfl⟩
      exact ⟨rfl, rfl⟩
  · simp only [Option.map_some, Option.some.injEq, Prod.mk.injEq, reduceCtorEq, false_and,
      exists_false, or_false, Except.ok.injEq]
    constructor
    · rintro ⟨rfl, rfl⟩
      exact ⟨b, ⟨rfl, rfl⟩, rfl⟩
    · rintro ⟨_, ⟨rfl, rfl⟩, rfl⟩
      exact ⟨rfl, rfl⟩

/-- A statement answers, or its transaction is rolled back. -/
theorem segment_statement {x : TxEnds W ε} {fate : Fate} {s : Sync W ε β} {ok : β → σ} {err : ε → σ}
    {w w' : W} {p : σ} (h : segment (x.statement fate s) ok err w = some (w', p)) :
    (∃ b, s w = some (.ok b, w') ∧ p = ok b)
      ∨ ∃ e w₁, p = err e ∧ w' = x.rollback w₁
        ∧ (fate ≠ .answered ∧ w₁ = w ∨ s w = some (.error e, w₁)) := by
  unfold segment TxEnds.statement at h
  rcases fate with _ | _ | _
  · rcases hs : s w with _ | ⟨e | b, w₁⟩ <;> rw [hs] at h <;>
      simp only [Option.map_none, Option.map_some, reduceCtorEq, Option.some.injEq,
        Prod.mk.injEq] at h <;> obtain ⟨rfl, rfl⟩ := h
    · exact .inr ⟨e, w₁, rfl, rfl, .inr rfl⟩
    · exact .inl ⟨b, rfl, rfl⟩
  all_goals
    simp only [Option.map_some, Option.some.injEq, Prod.mk.injEq] at h
    obtain ⟨rfl, rfl⟩ := h
    exact .inr ⟨_, w, rfl, rfl, .inl ⟨by simp, rfl⟩⟩

theorem segment_commitTx {x : TxEnds W ε} {fate : Fate} {ok : Unit → σ} {err : ε → σ} {w w' : W}
    {p : σ} (h : segment (x.commitTx fate) ok err w = some (w', p)) :
    (w' = x.commit w ∧ (fate = .answered ∧ p = ok () ∨ fate = .answerLost ∧ p = err x.failure))
      ∨ fate = .failed ∧ w' = x.rollback w ∧ p = err x.failure := by
  unfold segment TxEnds.commitTx at h
  rcases fate with _ | _ | _ <;> simp only [Option.map_some, Option.some.injEq, Prod.mk.injEq] at h <;>
    obtain ⟨rfl, rfl⟩ := h <;> simp

theorem segment_rollbackTx {x : TxEnds W ε} {fate : Fate} {ok : Unit → σ} {err : ε → σ} {w w' : W}
    {p : σ} (h : segment (x.rollbackTx fate) ok err w = some (w', p)) :
    w' = x.rollback w ∧ (fate = .answered ∧ p = ok () ∨ fate ≠ .answered ∧ p = err x.failure) := by
  unfold segment TxEnds.rollbackTx at h
  rcases fate with _ | _ | _ <;> simp only [Option.map_some, Option.some.injEq, Prod.mk.injEq] at h <;>
    obtain ⟨rfl, rfl⟩ := h <;> simp

omit [DecidableEq τ] in
theorem Runs.await {t : τ} {F : Except ε α → σ → Prop} {x : Sync W ε α} {s : σ} {o : α → σ}
    {e : ε → σ} (hm : M.move t s = segment x o e) (ho : ∀ a, F (.ok a) (o a))
    (he : ∀ a, F (.error a) (e a)) : M.Runs t F (Async.await x) s := by
  refine ⟨fun w h => ?_, fun w r w' h => ?_⟩
  · change x w = none at h
    rw [hm, segment, h]
    rfl
  · change x w = some (r, w') at h
    rw [hm, segment, h]
    rcases r with a | a
    · exact ⟨e a, rfl, he a⟩
    · exact ⟨o a, rfl, ho a⟩

omit [DecidableEq τ] in
theorem Runs.await_bind {t : τ} {F : Except ε α → σ → Prop} {x : Sync W ε β}
    {f : β → Async W ε α} {s : σ} {o : β → σ} {e : ε → σ}
    (hm : M.move t s = segment x o e) (hf : ∀ b, M.Runs t F (f b) (o b))
    (he : ∀ a, F (.error a) (e a)) : M.Runs t F (Async.await x >>= f) s := by
  refine Runs.bind (K := fun r s' => match r with
    | .ok b => s' = o b
    | .error a => s' = e a) (Runs.await hm (fun _ => rfl) fun _ => rfl) ?_ ?_
  · rintro b _ rfl
    exact hf b
  · rintro a _ rfl
    exact he a

omit [DecidableEq τ] in
/-- A segment that does not throw. -/
theorem Runs.await_ok {t : τ} {F : Except ε α → σ → Prop} {x : Sync W ε α} {s : σ} {o : α → σ}
    (hx : ∀ w e w', x w ≠ some (.error e, w')) (hm : M.move t s = segment x o fun _ => s)
    (ho : ∀ a, F (.ok a) (o a)) : M.Runs t F (Async.await x) s := by
  refine ⟨fun w h => ?_, fun w r w' h => ?_⟩
  · change x w = none at h
    rw [hm, segment, h]
    rfl
  · change x w = some (r, w') at h
    rw [hm, segment, h]
    rcases r with a | a
    · exact absurd h (hx w a w')
    · exact ⟨o a, rfl, ho a⟩

omit [DecidableEq τ] in
theorem Runs.await_bind_ok {t : τ} {F : Except ε α → σ → Prop} {x : Sync W ε β}
    {f : β → Async W ε α} {s : σ} {o : β → σ} (hx : ∀ w e w', x w ≠ some (.error e, w'))
    (hm : M.move t s = segment x o fun _ => s) (hf : ∀ b, M.Runs t F (f b) (o b)) :
    M.Runs t F (Async.await x >>= f) s := by
  refine Runs.bind (K := fun r s' => match r with
    | .ok b => s' = o b
    | .error _ => False) (Runs.await_ok hx hm fun _ => rfl) ?_ fun _ _ h => h.elim
  rintro b _ rfl
  exact hf b

/-- Where each step of a program that meets `Q` is a move of the machine, and meets it after, every
run is a trace. -/
theorem trace_of_moves {c₀ c : Config τ W ε α} {Q : τ → Async W ε α → σ → Prop}
    (hQ : ∀ t β (act : W → Option (β × W)) k s, Q t (.step act k) s → ∀ w b w',
      act w = some (b, w') → ∃ s', M.move t s w = some (w', s') ∧ Q t (k b) s')
    (h₀ : ∀ t, Q t (c₀.thread t) (M.start t)) {h : List (Taken τ W)} (hrun : c₀.Run h c) :
    M.Trace c₀.world h c.world ∧ ∀ t, Q t (c.thread t) (M.phases h t) := by
  induction hrun with
  | nil => exact ⟨.nil, h₀⟩
  | @snoc h c₁ c₂ i _ hs ih =>
    obtain ⟨β, act, k, b, hi, hb, ht⟩ := Config.step_eq_some hs
    have hi' := ih.2 i
    rw [hi] at hi'
    obtain ⟨p, hm, hk⟩ := hQ i β act k _ hi' _ b _ hb
    refine ⟨.snoc ih.1 hm, fun t => ?_⟩
    rw [phases_snoc, advance_of_move hm, ht]
    rcases eq_or_ne t i with rfl | hne
    · rwa [Function.update_self, Function.update_self]
    · rw [Function.update_of_ne hne, Function.update_of_ne hne]
      exact ih.2 t

/-- Every run of programs that run the machine is a trace of it. -/
theorem trace_of_run {c₀ c : Config τ W ε α} {F : τ → Except ε α → σ → Prop}
    (h₀ : ∀ t, M.Runs t (F t) (c₀.thread t) (M.start t)) {h : List (Taken τ W)}
    (hrun : c₀.Run h c) :
    M.Trace c₀.world h c.world ∧ ∀ t, M.Runs t (F t) (c.thread t) (M.phases h t) :=
  trace_of_moves (fun _ _ _ _ _ hruns => hruns.2) h₀ hrun

/-- So is every run of programs that follow its moves. -/
theorem trace_of_follows {c₀ c : Config τ W ε α} {F : τ → Except ε α → σ → Prop}
    (h₀ : ∀ t, Follows (fun s w w' s' => M.move t s w = some (w', s')) (F t) (c₀.thread t)
      (M.start t)) {h : List (Taken τ W)} (hrun : c₀.Run h c) :
    M.Trace c₀.world h c.world ∧ ∀ t,
      Follows (fun s w w' s' => M.move t s w = some (w', s')) (F t) (c.thread t) (M.phases h t) :=
  trace_of_moves (fun _ _ _ _ _ hfollows => hfollows) h₀ hrun

omit [DecidableEq τ] in
/-- A program whose segments can all be taken has ended where no move is left. -/
theorem Runs.ended {p : Async W ε α} {t : τ} {F : Except ε α → σ → Prop} {s : σ}
    (hruns : M.Runs t F p s) (heach : p.Each fun _ act => ∃ w, (act w).isSome)
    (hs : ∀ w, M.move t s w = none) : ∃ r, p.result = some r ∧ F r s := by
  cases p with
  | ret r => exact ⟨r, rfl, hruns⟩
  | step act k =>
    obtain ⟨w, hw⟩ := heach.1
    obtain ⟨⟨b, w'⟩, hb⟩ := Option.isSome_iff_exists.1 hw
    obtain ⟨s', hm, -⟩ := hruns.2 w b w' hb
    rw [hs w] at hm
    exact absurd hm (by simp)

/-- A thread that cannot step has ended, or its move waits. -/
theorem ended_or_waits {c : Config τ W ε α} {t : τ} {F : Except ε α → σ → Prop} {s : σ}
    (hruns : M.Runs t F (c.thread t) s) (hstep : c.step t = none) :
    (∃ r, (c.thread t).result = some r ∧ F r s) ∨ M.move t s c.world = none := by
  unfold Config.step at hstep
  rcases hp : c.thread t with r | ⟨act, k⟩ <;> rw [hp] at hruns hstep
  · exact .inl ⟨r, rfl, hruns⟩
  · exact .inr (hruns.1 _ (by simpa using hstep))

end Machine

end Interleave
