import LaunchPad.Lib.Async

/-!
# Rely and guarantee

`Safe R G Q p w` says of a program `p` at the world `w`: whatever the others do within `R` at its
scheduling points, each of its own segments stays within `G`, and what it ends with satisfies
`Q`, also after whatever the others do later. If every thread is safe, and what one guarantees
the others rely on, then every step any schedule takes is within some thread's guarantee
(`Safe.reach`), so a property all guarantees keep is an invariant (`Safe.invariant`).
-/

namespace Interleave

open Relation

variable {W ε α β : Type}

/-- `P` survives what the others do. -/
def Stable (R : W → W → Prop) (P : W → Prop) : Prop := ∀ w w', P w → R w w' → P w'

theorem Stable.star {R : W → W → Prop} {P : W → Prop} (h : Stable R P) {w w' : W} (hw : P w)
    (hr : ReflTransGen R w w') : P w' := by
  induction hr with
  | refl => exact hw
  | tail _ hs ih => exact h _ _ ih hs

theorem Stable.and {R : W → W → Prop} {P P' : W → Prop} (h : Stable R P) (h' : Stable R P') :
    Stable R fun w => P w ∧ P' w :=
  fun _ _ hw hr => ⟨h _ _ hw.1 hr, h' _ _ hw.2 hr⟩

theorem Stable.const {R : W → W → Prop} (p : Prop) : Stable R fun _ => p := fun _ _ h _ => h

/-- The program stays within `G` and ends in `Q` while the others stay within `R`. -/
def Safe (R G : W → W → Prop) (Q : Except ε α → W → Prop) : Async W ε α → W → Prop
  | .ret r, w => ∀ w', ReflTransGen R w w' → Q r w'
  | .step act k, w => ∀ w', ReflTransGen R w w' → ∀ b w'', act w' = some (b, w'') →
      G w' w'' ∧ Safe R G Q (k b) w''

namespace Safe

variable {R G : W → W → Prop} {Q : Except ε α → W → Prop}

theorem rely {p : Async W ε α} {w w' : W} (h : Safe R G Q p w) (hr : ReflTransGen R w w') :
    Safe R G Q p w' := by
  cases p with
  | ret r => exact fun w'' h' => h w'' (hr.trans h')
  | step act k => exact fun w'' h' => h w'' (hr.trans h')

theorem ret {r : Except ε α} {w : W} (hQ : Stable R (Q r)) (hw : Q r w) :
    Safe R G Q (.ret r) w := fun _ hr => hQ.star hw hr

theorem pure {a : α} {w : W} (hQ : Stable R (Q (.ok a))) (hw : Q (.ok a) w) :
    Safe R G Q (Pure.pure a : Async W ε α) w := ret hQ hw

theorem throw {e : ε} {w : W} (hQ : Stable R (Q (.error e))) (hw : Q (.error e) w) :
    Safe R G Q (MonadExcept.throw e : Async W ε α) w := ret hQ hw

/-- A segment is safe where it keeps `G` and establishes `Q` from what is known at its start. -/
theorem await {s : Sync W ε α} {w : W} (P : W → Prop) (hP : Stable R P) (hw : P w)
    (hQ : ∀ r, Stable R (Q r))
    (h : ∀ w r w', P w → s w = some (r, w') → G w w' ∧ Q r w') :
    Safe R G Q (Async.await s) w := by
  intro w' hr r w'' hs
  obtain ⟨hG, hq⟩ := h w' r w'' (hP.star hw hr) hs
  exact ⟨hG, ret (hQ r) hq⟩

theorem bind {x : Async W ε β} {f : β → Async W ε α} {Q' : Except ε β → W → Prop} {w : W}
    (hx : Safe R G Q' x w) (hf : ∀ b w', Q' (.ok b) w' → Safe R G Q (f b) w')
    (he : ∀ e w', Q' (.error e) w' → Q (.error e) w') :
    Safe R G Q (x >>= f) w := by
  change Safe R G Q (x.bind f) w
  induction x generalizing w with
  | ret r =>
    cases r with
    | ok b => exact hf b w (hx w .refl)
    | error e => exact fun w' hr => he e w' (hx w' hr)
  | step act k ih =>
    intro w' hr b w'' hs
    obtain ⟨hG, hk⟩ := hx w' hr b w'' hs
    exact ⟨hG, ih b hk⟩

theorem tryCatch {x : Async W ε α} {h : ε → Async W ε α} {Q' : Except ε α → W → Prop} {w : W}
    (hx : Safe R G Q' x w) (ho : ∀ a w', Q' (.ok a) w' → Q (.ok a) w')
    (hh : ∀ e w', Q' (.error e) w' → Safe R G Q (h e) w') :
    Safe R G Q (MonadExcept.tryCatch x h) w := by
  change Safe R G Q (x.tryCatch h) w
  induction x generalizing w with
  | ret r =>
    cases r with
    | ok a => exact fun w' hr => ho a w' (hx w' hr)
    | error e => exact hh e w (hx w .refl)
  | step act k ih =>
    intro w' hr b w'' hs
    obtain ⟨hG, hk⟩ := hx w' hr b w'' hs
    exact ⟨hG, ih b hk⟩

/-- Await a segment, and go on from what it establishes. -/
theorem await_bind {s : Sync W ε β} {f : β → Async W ε α} {w : W} (P : W → Prop)
    (hP : Stable R P) (hw : P w) (Q' : Except ε β → W → Prop) (hQ' : ∀ r, Stable R (Q' r))
    (h : ∀ w r w', P w → s w = some (r, w') → G w w' ∧ Q' r w')
    (hf : ∀ b w', Q' (.ok b) w' → Safe R G Q (f b) w')
    (he : ∀ e w', Q' (.error e) w' → Q (.error e) w') :
    Safe R G Q (Async.await s >>= f) w :=
  bind (await P hP hw hQ' h) hf he

end Safe

section Threads

variable {τ : Type} [DecidableEq τ] {R G : τ → W → W → Prop} {Q : τ → Except ε α → W → Prop}

/-- A step of a thread is within its guarantee, and leaves every thread safe. -/
theorem Safe.step (hRG : ∀ i j, i ≠ j → ∀ w w', G j w w' → R i w w')
    {c c' : Config τ W ε α} (h : ∀ i, Safe (R i) (G i) (Q i) (c.thread i) c.world) {j : τ}
    (hs : c.step j = some c') :
    G j c.world c'.world ∧ ∀ i, Safe (R i) (G i) (Q i) (c'.thread i) c'.world := by
  obtain ⟨β, act, k, b, hj, hb, ht⟩ := Config.step_eq_some hs
  have hsafe := h j
  rw [hj] at hsafe
  obtain ⟨hG, hk⟩ := hsafe _ .refl b _ hb
  refine ⟨hG, fun i => ?_⟩
  rw [ht]
  rcases eq_or_ne i j with rfl | hij
  · simpa using hk
  · rw [Function.update_of_ne hij]
    exact (h i).rely (.single (hRG i j hij _ _ hG))

/-- Along every schedule the threads stay safe, and the world moves within their guarantees. -/
theorem Safe.reach (hRG : ∀ i j, i ≠ j → ∀ w w', G j w w' → R i w w')
    {c c' : Config τ W ε α} (h : ∀ i, Safe (R i) (G i) (Q i) (c.thread i) c.world)
    (hr : c.Reach c') :
    ReflTransGen (fun w w' => ∃ i, G i w w') c.world c'.world
      ∧ ∀ i, Safe (R i) (G i) (Q i) (c'.thread i) c'.world := by
  induction hr with
  | refl => exact ⟨.refl, h⟩
  | tail _ hs ih =>
    obtain ⟨j, hj⟩ := hs
    obtain ⟨hG, hsafe⟩ := Safe.step hRG ih.2 hj
    exact ⟨ih.1.tail ⟨j, hG⟩, hsafe⟩

/-- A property every guarantee keeps holds in every state a schedule leads to. -/
theorem Safe.invariant (hRG : ∀ i j, i ≠ j → ∀ w w', G j w w' → R i w w')
    {c c' : Config τ W ε α} (h : ∀ i, Safe (R i) (G i) (Q i) (c.thread i) c.world)
    (hr : c.Reach c') {P : W → Prop} (hP : ∀ i, Stable (G i) P) (hc : P c.world) :
    P c'.world :=
  Stable.star (R := fun w w' => ∃ i, G i w w') (fun _ _ hw ⟨i, hi⟩ => hP i _ _ hw hi) hc
    (Safe.reach hRG h hr).1

/-- A property every guarantee keeps from states that satisfy `A` holds at the end of a schedule
that passes through such states only. -/
theorem Safe.invariant_of_run (hRG : ∀ i j, i ≠ j → ∀ w w', G j w w' → R i w w') {A P : W → Prop}
    (hP : ∀ i w w', P w → A w → G i w w' → P w') : ∀ (is : List τ) {c c' : Config τ W ε α},
    (∀ i, Safe (R i) (G i) (Q i) (c.thread i) c.world) → c.runSchedule is = some c' →
    (∀ js c₁, js <+: is → c.runSchedule js = some c₁ → A c₁.world) → P c.world → P c'.world
  | [], c, c', _, hrun, _, hc => by
    simp only [Config.runSchedule, Option.some.injEq] at hrun
    exact hrun ▸ hc
  | i :: is, c, c', h, hrun, hA, hc => by
    simp only [Config.runSchedule, Option.bind_eq_some_iff] at hrun
    obtain ⟨c₁, hs, hrun⟩ := hrun
    obtain ⟨hG, h₁⟩ := Safe.step hRG h hs
    refine Safe.invariant_of_run hRG hP is h₁ hrun (fun js c₂ hjs hc₂ => ?_)
      (hP i _ _ hc (hA [] c (List.nil_prefix) rfl) hG)
    refine hA (i :: js) c₂ (List.cons_prefix_cons.2 ⟨rfl, hjs⟩) ?_
    simp [Config.runSchedule, hs, hc₂]

/-- What a thread ended with satisfies its postcondition. -/
theorem Safe.ended (hRG : ∀ i j, i ≠ j → ∀ w w', G j w w' → R i w w')
    {c c' : Config τ W ε α} (h : ∀ i, Safe (R i) (G i) (Q i) (c.thread i) c.world)
    (hr : c.Reach c') {i : τ} {r : Except ε α} (hres : (c'.thread i).result = some r) :
    Q i r c'.world := by
  have hs := (Safe.reach hRG h hr).2 i
  rcases hp : c'.thread i with r' | ⟨act, k⟩ <;> rw [hp] at hs hres
  · simp only [Async.result_ret, Option.some.injEq] at hres
    exact hres ▸ hs _ .refl
  · simp at hres

end Threads

end Interleave
