import LaunchPad.Lib.Transaction

/-!
# Threads that do not interfere

Some of the threads are watched, and `E` relates the worlds that look the same to them. If their
segments do the same in two such worlds (`Respects`), and nobody else's segment can be seen
(`Unseen`), then leaving the others out of a schedule changes nothing for the watched threads
(`Config.runSchedule_filter`).
-/

namespace Interleave

variable {W ε α β : Type}

namespace Async

/-- Every segment of the program satisfies `A`. -/
def Each (A : ∀ β : Type, (W → Option (β × W)) → Prop) : Async W ε α → Prop
  | .ret _ => True
  | .step act k => A _ act ∧ ∀ b, Each A (k b)

variable {A : ∀ β : Type, (W → Option (β × W)) → Prop}

theorem each_pure (a : α) : Each A (pure a : Async W ε α) := trivial

theorem each_throw (e : ε) : Each A (throw e : Async W ε α) := trivial

theorem each_await {s : Sync W ε α} (h : A _ s) : Each A (await s) := ⟨h, fun _ => trivial⟩

theorem each_bind {x : Async W ε β} {f : β → Async W ε α} (hx : Each A x)
    (hf : ∀ b, Each A (f b)) : Each A (x >>= f) := by
  change Each A (x.bind f)
  induction x with
  | ret r =>
    cases r with
    | ok b => exact hf b
    | error e => trivial
  | step act k ih => exact ⟨hx.1, fun b => ih b (hx.2 b)⟩

theorem each_tryCatch {x : Async W ε α} {h : ε → Async W ε α} (hx : Each A x)
    (hh : ∀ e, Each A (h e)) : Each A (tryCatch x h) := by
  change Each A (x.tryCatch h)
  induction x with
  | ret r =>
    cases r with
    | ok a => trivial
    | error e => exact hh e
  | step act k ih => exact ⟨hx.1, fun b => ih b (hx.2 b)⟩

theorem each_mapResult {ε' α' : Type} {f : Except ε α → Except ε' α'} {x : Async W ε α}
    (hx : Each A x) : Each A (x.mapResult f) := by
  induction x with
  | ret r => trivial
  | step act k ih => exact ⟨hx.1, fun b => ih b (hx.2 b)⟩

theorem each_zoom {V : Type} {get : V → W} {set : V → W → V}
    {B : ∀ β : Type, (V → Option (β × V)) → Prop} {p : Async W ε α} (hp : Each A p)
    (h : ∀ β act, A β act → B β fun v => (act (get v)).map fun p => (p.1, set v p.2)) :
    Each B (p.zoom get set) := by
  induction p with
  | ret r => trivial
  | step act k ih => exact ⟨h _ act hp.1, fun b => ih b (hp.2 b)⟩

/-- A program none of whose segments ever waits runs to its end. -/
theorem run_isSome_of_each : ∀ {p : Async W ε α}, p.Each (fun _ act => ∀ w, (act w).isSome) →
    ∀ w, (p.run w).isSome
  | .ret _, _, _ => rfl
  | .step act k, h, w => by
    rw [run_step_apply]
    obtain ⟨⟨b, w'⟩, hb⟩ := Option.isSome_iff_exists.1 (h.1 w)
    rw [hb]
    exact run_isSome_of_each (h.2 b) w'

end Async

/-- A step is a segment of the thread that takes it. -/
theorem Config.each_step {τ : Type} [DecidableEq τ]
    {A : τ → ∀ β : Type, (W → Option (β × W)) → Prop} {c c' : Config τ W ε α}
    (h : ∀ i, (c.thread i).Each (A i)) {j : τ} (hs : c.step j = some c') :
    (∃ β act b, A j β act ∧ act c.world = some (b, c'.world)) ∧ ∀ i, (c'.thread i).Each (A i) := by
  obtain ⟨β, act, k, b, hj, hb, ht⟩ := step_eq_some hs
  have hact := h j
  rw [hj] at hact
  refine ⟨⟨β, act, b, hact.1, hb⟩, fun i => ?_⟩
  rw [ht]
  rcases eq_or_ne i j with rfl | hij
  · rw [Function.update_self]
    exact hact.2 b
  · rw [Function.update_of_ne hij]
    exact h i

theorem Config.each_reach {τ : Type} [DecidableEq τ]
    {A : τ → ∀ β : Type, (W → Option (β × W)) → Prop} {c c' : Config τ W ε α}
    (h : ∀ i, (c.thread i).Each (A i)) (hr : c.Reach c') : ∀ i, (c'.thread i).Each (A i) := by
  induction hr with
  | refl => exact h
  | tail _ hs ih =>
    obtain ⟨j, hj⟩ := hs
    exact (each_step ih hj).2

/-- The segment does the same in worlds that look the same. -/
def Respects (E : W → W → Prop) (β : Type) (act : W → Option (β × W)) : Prop :=
  ∀ w v b w', E w v → act w = some (b, w') → ∃ v', act v = some (b, v') ∧ E w' v'

/-- What the segment does is not seen. -/
def Unseen (E : W → W → Prop) (β : Type) (act : W → Option (β × W)) : Prop :=
  ∀ w v b w', E w v → act w = some (b, w') → E w' v

section Statements

variable {E : W → W → Prop} {x : TxEnds W ε} {fate : Fate}

theorem respects_statement {s : Sync W ε α} (hs : Respects E _ s)
    (hr : ∀ w v, E w v → E (x.rollback w) (x.rollback v)) :
    Respects E _ (x.statement fate s) := by
  intro w v r w' hE h
  unfold TxEnds.statement at h ⊢
  have hfail : some (Except.error x.failure, x.rollback w) = some (r, w') →
      ∃ v', some (Except.error x.failure, x.rollback v) = some (r, v') ∧ E w' v' := by
    intro h
    simp only [Option.some.injEq, Prod.mk.injEq] at h
    obtain ⟨rfl, rfl⟩ := h
    exact ⟨_, rfl, hr w v hE⟩
  rcases fate with _ | _ | _
  · rcases hsw : s w with _ | ⟨e | a, w₁⟩ <;> rw [hsw] at h <;>
      simp only [reduceCtorEq, Option.some.injEq, Prod.mk.injEq] at h <;> obtain ⟨rfl, rfl⟩ := h
    · obtain ⟨v₁, hsv, hE₁⟩ := hs w v _ _ hE hsw
      exact ⟨x.rollback v₁, by rw [hsv], hr w₁ v₁ hE₁⟩
    · obtain ⟨v₁, hsv, hE₁⟩ := hs w v _ _ hE hsw
      exact ⟨v₁, by rw [hsv], hE₁⟩
  · exact hfail h
  · exact hfail h

theorem respects_beginTx (hr : ∀ w v, E w v → E (x.rollback w) (x.rollback v)) :
    Respects E _ (x.beginTx fate) := by
  refine respects_statement (fun w v r w' hE h => ?_) hr
  simp only [Sync.pure_apply, Option.some.injEq, Prod.mk.injEq] at h
  obtain ⟨rfl, rfl⟩ := h
  exact ⟨v, rfl, hE⟩

theorem respects_commitTx (hc : ∀ w v, E w v → E (x.commit w) (x.commit v))
    (hr : ∀ w v, E w v → E (x.rollback w) (x.rollback v)) : Respects E _ (x.commitTx fate) := by
  intro w v r w' hE h
  unfold TxEnds.commitTx at h ⊢
  rcases fate with _ | _ | _ <;> simp only [Option.some.injEq, Prod.mk.injEq] at h <;>
    obtain ⟨rfl, rfl⟩ := h
  · exact ⟨_, rfl, hc w v hE⟩
  · exact ⟨_, rfl, hr w v hE⟩
  · exact ⟨_, rfl, hc w v hE⟩

theorem respects_rollbackTx (hr : ∀ w v, E w v → E (x.rollback w) (x.rollback v)) :
    Respects E _ (x.rollbackTx fate) := by
  intro w v r w' hE h
  unfold TxEnds.rollbackTx at h ⊢
  rcases fate with _ | _ | _ <;> simp only [Option.some.injEq, Prod.mk.injEq] at h <;>
    obtain ⟨rfl, rfl⟩ := h <;> exact ⟨_, rfl, hr w v hE⟩

theorem unseen_statement {s : Sync W ε α} (hs : Unseen E _ s)
    (hr : ∀ w v, E w v → E (x.rollback w) v) : Unseen E _ (x.statement fate s) := by
  intro w v r w' hE
  refine TxEnds.wp_statement (Q := fun _ w' => E w' v) ?_ (hr w v hE) r w'
  rintro (e | a) w₁ hsw
  · exact hr w₁ v (hs w v _ _ hE hsw)
  · exact hs w v _ _ hE hsw

theorem unseen_beginTx (hr : ∀ w v, E w v → E (x.rollback w) v) :
    Unseen E _ (x.beginTx fate) := by
  refine unseen_statement (fun w v r w' hE h => ?_) hr
  simp only [Sync.pure_apply, Option.some.injEq, Prod.mk.injEq] at h
  exact h.2 ▸ hE

theorem unseen_commitTx (hc : ∀ w v, E w v → E (x.commit w) v)
    (hr : ∀ w v, E w v → E (x.rollback w) v) : Unseen E _ (x.commitTx fate) := by
  intro w v r w' hE
  have hwp : (x.commitTx fate).wp (fun _ w' => E w' v) w :=
    TxEnds.wp_commitTx.2 ⟨fun _ => hc w v hE, fun _ => hr w v hE, fun _ => hc w v hE⟩
  exact hwp r w'

theorem unseen_rollbackTx (hr : ∀ w v, E w v → E (x.rollback w) v) :
    Unseen E _ (x.rollbackTx fate) := by
  intro w v r w' hE
  have hwp : (x.rollbackTx fate).wp (fun _ w' => E w' v) w :=
    TxEnds.wp_rollbackTx fun _ => hr w v hE
  exact hwp r w'

end Statements

namespace Config

variable {τ : Type} [DecidableEq τ] {E : W → W → Prop} {watched : τ → Prop} [DecidablePred watched]

/-- The same to the watched threads, and each thread as it should be. -/
structure SameTo (E : W → W → Prop) (watched : τ → Prop) (c d : Config τ W ε α) : Prop where
  world : E c.world d.world
  thread : ∀ i, watched i → d.thread i = c.thread i
  respects : ∀ i, watched i → (c.thread i).Each (Respects E)
  unseen : ∀ i, ¬ watched i → (c.thread i).Each (Unseen E)

theorem SameTo.step {c d c' : Config τ W ε α} (h : SameTo E watched c d) {i : τ}
    (hs : c.step i = some c') :
    if watched i then ∃ d', d.step i = some d' ∧ SameTo E watched c' d'
    else SameTo E watched c' d := by
  obtain ⟨β, act, k, b, hi, hb, ht⟩ := step_eq_some hs
  by_cases hw : watched i
  · rw [if_pos hw]
    have hact := h.respects i hw
    rw [hi] at hact
    obtain ⟨v', hv', hE⟩ := hact.1 _ _ _ _ h.world hb
    refine ⟨⟨v', Function.update d.thread i (k b)⟩, ?_, hE, fun j hj => ?_, fun j hj => ?_,
      fun j hj => ?_⟩
    · have hd : d.thread i = .step act k := (h.thread i hw).trans hi
      unfold Config.step
      rw [hd]
      simp [hv']
    · rw [ht]
      rcases eq_or_ne j i with rfl | hji
      · simp
      · simp only [Function.update_of_ne hji]
        exact h.thread j hj
    · rw [ht]
      rcases eq_or_ne j i with rfl | hji
      · rw [Function.update_self]
        exact hact.2 b
      · rw [Function.update_of_ne hji]
        exact h.respects j hj
    · have hji : j ≠ i := fun he => hj (he ▸ hw)
      rw [ht, Function.update_of_ne hji]
      exact h.unseen j hj
  · rw [if_neg hw]
    have hact := h.unseen i hw
    rw [hi] at hact
    refine ⟨hact.1 _ _ _ _ h.world hb, fun j hj => ?_, fun j hj => ?_, fun j hj => ?_⟩
    · have hji : j ≠ i := fun he => hw (he ▸ hj)
      rw [ht, Function.update_of_ne hji]
      exact h.thread j hj
    · have hji : j ≠ i := fun he => hw (he ▸ hj)
      rw [ht, Function.update_of_ne hji]
      exact h.respects j hj
    · rw [ht]
      rcases eq_or_ne j i with rfl | hji
      · rw [Function.update_self]
        exact hact.2 b
      · rw [Function.update_of_ne hji]
        exact h.unseen j hj

/-- Without the steps of the others, a schedule leads the watched threads to the same point. -/
theorem runSchedule_filter : ∀ (is : List τ) {c d c' : Config τ W ε α},
    SameTo E watched c d → c.runSchedule is = some c' →
      ∃ d', d.runSchedule (is.filter watched) = some d' ∧ SameTo E watched c' d'
  | [], c, d, c', h, hrun => by
    simp only [runSchedule, Option.some.injEq] at hrun
    exact ⟨d, rfl, hrun ▸ h⟩
  | i :: is, c, d, c', h, hrun => by
    simp only [runSchedule, Option.bind_eq_some_iff] at hrun
    obtain ⟨c₁, hs, hrun⟩ := hrun
    have hstep := h.step hs
    by_cases hw : watched i
    · rw [if_pos hw] at hstep
      obtain ⟨d₁, hd, h₁⟩ := hstep
      obtain ⟨d', hd', h'⟩ := runSchedule_filter is h₁ hrun
      refine ⟨d', ?_, h'⟩
      rw [List.filter_cons_of_pos (by simpa using hw)]
      simp only [runSchedule, hd, Option.bind_some]
      exact hd'
    · rw [if_neg hw] at hstep
      obtain ⟨d', hd', h'⟩ := runSchedule_filter is hstep hrun
      exact ⟨d', by rwa [List.filter_cons_of_neg (by simpa using hw)], h'⟩

end Config

end Interleave
