import LaunchPad.Lib.Noninterference
import LaunchPad.Lib.RelyGuarantee
import Mathlib.Data.List.Infix

/-!
# Protocols

A program follows a protocol when each of its segments is a move of it: in phase `s` it takes the
world from `w` to `w'` and is in phase `s'` after (`Follows`). A run has a history, the steps it
took. What every move keeps, of the history, the phases and the world, holds along every run
(`Follows.run`); and where a move keeps a property just if it is a good one, the property holds
all along a run just if every step of it was good (`Follows.iff_good`). The history of a run of safe
programs is one of guarantees (`Safe.run`).
-/

namespace Interleave

variable {W ε α β σ τ : Type}

/-- A step that some thread took. -/
structure Taken (τ W : Type) where
  thread : τ
  before : W
  after : W

/-! ## Histories -/

/-- The thread's own steps. -/
def stepsOf [DecidableEq τ] (t : τ) (h : List (Taken τ W)) : List (Taken τ W) :=
  h.filter fun s => s.thread = t

section StepsOf

variable [DecidableEq τ] {t : τ} {h : List (Taken τ W)} {s : Taken τ W}

@[simp] theorem stepsOf_nil : stepsOf t ([] : List (Taken τ W)) = [] := rfl

theorem mem_stepsOf {s' : Taken τ W} : s' ∈ stepsOf t h ↔ s' ∈ h ∧ s'.thread = t := by
  simp [stepsOf]

theorem stepsOf_snoc_self : stepsOf s.thread (h ++ [s]) = stepsOf s.thread h ++ [s] := by
  simp [stepsOf, List.filter_append]

theorem stepsOf_snoc_of_ne (ht : s.thread ≠ t) : stepsOf t (h ++ [s]) = stepsOf t h := by
  simp [stepsOf, List.filter_append, ht]

end StepsOf

/-- The steps of a history, each with those before it. -/
theorem forall_step_cons {G : List (Taken τ W) → Taken τ W → Prop} {a : Taken τ W}
    {h : List (Taken τ W)} : (∀ h₁ s, h₁ ++ [s] <+: a :: h → G h₁ s)
      ↔ G [] a ∧ ∀ h₁ s, h₁ ++ [s] <+: h → G (a :: h₁) s := by
  constructor
  · refine fun hG => ⟨hG [] a (by simp), fun h₁ s hp => hG (a :: h₁) s ?_⟩
    simpa using hp
  · rintro ⟨ha, hG⟩ (_ | ⟨b, h₁⟩) s hp
    · obtain ⟨rfl, -⟩ := List.cons_prefix_cons.1 hp
      exact ha
    · rw [List.cons_append] at hp
      obtain ⟨rfl, hp'⟩ := List.cons_prefix_cons.1 hp
      exact hG h₁ s hp'

theorem forall_step_snoc {G : List (Taken τ W) → Taken τ W → Prop} {a : Taken τ W}
    {h : List (Taken τ W)} : (∀ h₁ s, h₁ ++ [s] <+: h ++ [a] → G h₁ s)
      ↔ (∀ h₁ s, h₁ ++ [s] <+: h → G h₁ s) ∧ G h a := by
  constructor
  · exact fun hG => ⟨fun h₁ s hp => hG h₁ s (hp.trans (List.prefix_append _ _)),
      hG h a (List.prefix_refl _)⟩
  · rintro ⟨hG, ha⟩ h₁ s hp
    rcases List.prefix_concat_iff.1 hp with he | hp'
    · obtain ⟨rfl, he'⟩ := List.append_inj' he rfl
      obtain rfl := List.singleton_inj.1 he'
      exact ha
    · exact hG h₁ s hp'

theorem forall_step_nil {G : List (Taken τ W) → Taken τ W → Prop} :
    ∀ h₁ s, h₁ ++ [s] <+: [] → G h₁ s := by simp

/-- Every step stands beside those before it. -/
theorem forall_step_of_zip {G : List (Taken τ W) → Taken τ W → Prop} {h : List (Taken τ W)}
    (hall : ∀ p ∈ h.zip h.inits, G p.2 p.1) : ∀ h₁ s, h₁ ++ [s] <+: h → G h₁ s := by
  induction h generalizing G with
  | nil => exact forall_step_nil
  | cons a h ih =>
    have hzip : (a :: h).zip (a :: h).inits
        = (a, []) :: (h.zip h.inits).map (Prod.map id (a :: ·)) := by
      rw [List.inits_cons, List.zip_cons_cons, List.zip_map_right]
    rw [hzip, List.forall_mem_cons, List.forall_mem_map] at hall
    exact forall_step_cons.2 ⟨hall.1, ih hall.2⟩

namespace Config

variable [DecidableEq τ]

/-- These steps, the oldest first, lead from `c` to `c'`. -/
inductive Run (c : Config τ W ε α) : List (Taken τ W) → Config τ W ε α → Prop
  | nil : c.Run [] c
  | snoc {h : List (Taken τ W)} {c₁ c₂ : Config τ W ε α} {i : τ} (hrun : c.Run h c₁)
      (hs : c₁.step i = some c₂) : c.Run (h ++ [⟨i, c₁.world, c₂.world⟩]) c₂

/-- The steps a schedule takes, and where they lead. -/
def history (c : Config τ W ε α) : List τ → Option (List (Taken τ W) × Config τ W ε α)
  | [] => some ([], c)
  | i :: is => (c.step i).bind fun c' =>
      (c'.history is).map fun p => (⟨i, c.world, c'.world⟩ :: p.1, p.2)

theorem Run.trans {c c₁ c₂ : Config τ W ε α} {h h' : List (Taken τ W)} (hrun : c.Run h c₁)
    (hrun' : c₁.Run h' c₂) : c.Run (h ++ h') c₂ := by
  induction hrun' with
  | nil => rwa [List.append_nil]
  | snoc _ hs ih =>
    rw [← List.append_assoc]
    exact .snoc ih hs

theorem run_of_history : ∀ (is : List τ) {c c' : Config τ W ε α} {h : List (Taken τ W)},
    c.history is = some (h, c') → c.Run h c'
  | [], c, c', h, hh => by
    simp only [history, Option.some.injEq, Prod.mk.injEq] at hh
    obtain ⟨rfl, rfl⟩ := hh
    exact .nil
  | i :: is, c, c', h, hh => by
    simp only [history, Option.bind_eq_some_iff, Option.map_eq_some_iff, Prod.mk.injEq] at hh
    obtain ⟨c₁, hs, ⟨h', c₂⟩, hh', rfl, rfl⟩ := hh
    exact (Run.nil.snoc hs).trans (run_of_history is hh')

/-- The steps of a schedule are its threads'. -/
theorem history_threads : ∀ (is : List τ) {c c' : Config τ W ε α} {h : List (Taken τ W)},
    c.history is = some (h, c') → h.map Taken.thread = is
  | [], c, c', h, hh => by
    simp only [history, Option.some.injEq, Prod.mk.injEq] at hh
    rw [← hh.1, List.map_nil]
  | i :: is, c, c', h, hh => by
    simp only [history, Option.bind_eq_some_iff, Option.map_eq_some_iff, Prod.mk.injEq] at hh
    obtain ⟨c₁, hs, ⟨h', c₂⟩, hh', rfl, rfl⟩ := hh
    rw [List.map_cons, history_threads is hh']

theorem Run.reach {c c' : Config τ W ε α} {h : List (Taken τ W)} (hrun : c.Run h c') :
    c.Reach c' := by
  induction hrun with
  | nil => exact .refl
  | snoc _ hs ih => exact ih.tail ⟨_, hs⟩

/-- A run ends where its last step does. -/
theorem Run.world_of_snoc {c c' : Config τ W ε α} {h : List (Taken τ W)} {s : Taken τ W}
    (hrun : c.Run (h ++ [s]) c') : c'.world = s.after := by
  generalize hh : h ++ [s] = h' at hrun
  cases hrun with
  | nil => simp at hh
  | snoc =>
    obtain ⟨-, he⟩ := List.append_inj' hh rfl
    rw [List.singleton_inj.1 he]

theorem Run.eq_of_nil {c c' : Config τ W ε α} (hrun : c.Run [] c') : c' = c := by
  generalize hh : [] = h at hrun
  cases hrun with
  | nil => rfl
  | snoc => simp at hh

/-- The run of the first steps. -/
theorem Run.initial {c c' : Config τ W ε α} {h h₁ : List (Taken τ W)} (hrun : c.Run h c')
    (hp : h₁ <+: h) : ∃ c₁, c.Run h₁ c₁ := by
  induction hrun with
  | nil =>
    obtain rfl := List.prefix_nil.1 hp
    exact ⟨c, .nil⟩
  | snoc hr hs ih =>
    rcases List.prefix_concat_iff.1 hp with rfl | hp'
    · exact ⟨_, .snoc hr hs⟩
    · exact ih hp'

/-- The step a run took after its first ones. -/
theorem Run.step_of_prefix {c c' : Config τ W ε α} {h : List (Taken τ W)} (hrun : c.Run h c')
    {h₁ : List (Taken τ W)} {s : Taken τ W} (hp : h₁ ++ [s] <+: h) :
    ∃ c₁ c₂, c.Run h₁ c₁ ∧ c₁.step s.thread = some c₂ ∧ s.before = c₁.world
      ∧ s.after = c₂.world := by
  induction hrun with
  | nil =>
    have hlen := hp.length_le
    simp at hlen
  | @snoc h c₁ c₂ i hr hs ih =>
    rcases List.prefix_concat_iff.1 hp with he | hp'
    · obtain ⟨rfl, he'⟩ := List.append_inj' he rfl
      obtain rfl := List.singleton_inj.1 he'
      exact ⟨c₁, c₂, hr, hs, rfl, rfl⟩
    · exact ih hp'

/-- A run starts where its first step does. -/
theorem Run.world_of_cons {c c' : Config τ W ε α} {h : List (Taken τ W)} {s : Taken τ W}
    (hrun : c.Run (s :: h) c') : s.before = c.world := by
  have hp : [] ++ [s] <+: s :: h := ⟨h, rfl⟩
  obtain ⟨c₁, -, hrun₁, -, hbefore, -⟩ := hrun.step_of_prefix hp
  rw [hbefore, hrun₁.eq_of_nil]

/-- What a run has changed, one of its steps has. -/
theorem Run.exists_change {γ : Type} (f : W → γ) {c c' : Config τ W ε α} {h : List (Taken τ W)}
    (hrun : c.Run h c') (hne : f c'.world ≠ f c.world) :
    ∃ h₁ s, h₁ ++ [s] <+: h ∧ f s.after ≠ f s.before := by
  induction hrun with
  | nil => exact absurd rfl hne
  | @snoc h c₁ c₂ i hr hs ih =>
    by_cases hlast : f c₂.world = f c₁.world
    · rw [hlast] at hne
      obtain ⟨h₁, s, hp, hchange⟩ := ih hne
      exact ⟨h₁, s, hp.trans (List.prefix_append _ _), hchange⟩
    · exact ⟨h, _, List.prefix_refl _, hlast⟩

/-- A thread that does not have to wait may run to its end with nothing in between. -/
theorem run_alone {t : τ} : ∀ {p : Async W ε α} {c : Config τ W ε α}, c.thread t = p →
    ∀ {r : Except ε α} {w' : W}, p.run c.world = some (r, w') →
      ∃ h, c.Run h ⟨w', Function.update c.thread t (.ret r)⟩
  | .ret r₀, c, ht, r, w', hrun => by
    obtain ⟨rfl, rfl⟩ := Prod.mk.inj (Option.some.inj hrun)
    refine ⟨[], ?_⟩
    rw [← ht, Function.update_eq_self]
    exact .nil
  | .step act k, c, ht, r, w', hrun => by
    rw [Async.run_step_apply] at hrun
    rcases hact : act c.world with _ | ⟨b, w₁⟩ <;> rw [hact] at hrun
    · simp at hrun
    have hs : c.step t = some ⟨w₁, Function.update c.thread t (k b)⟩ := by
      simp [step, ht, hact]
    obtain ⟨h, hrun'⟩ := run_alone (c := ⟨w₁, Function.update c.thread t (k b)⟩)
      (Function.update_self t (k b) c.thread) hrun
    rw [Function.update_idem] at hrun'
    exact ⟨_, (Run.nil.snoc hs).trans hrun'⟩

end Config

/-! ## Guarantees -/

section Guarantees

variable [DecidableEq τ] {R G : τ → W → W → Prop} {Q : τ → Except ε α → W → Prop}
  {c c' : Config τ W ε α} {h : List (Taken τ W)}

/-- What every guarantee keeps, of the history and the world, holds after every run. -/
theorem Safe.run (hRG : ∀ i j, i ≠ j → ∀ w w', G j w w' → R i w w')
    (hsafe : ∀ i, Safe (R i) (G i) (Q i) (c.thread i) c.world) {P : List (Taken τ W) → W → Prop}
    (hP₀ : P [] c.world) (hP : ∀ h w i w', P h w → G i w w' → P (h ++ [⟨i, w, w'⟩]) w')
    (hrun : c.Run h c') : P h c'.world := by
  induction hrun with
  | nil => exact hP₀
  | snoc hr hs ih =>
    obtain ⟨-, hsafe'⟩ := Safe.reach hRG hsafe hr.reach
    exact hP _ _ _ _ ih (Safe.step hRG hsafe' hs).1

/-- The step a run took after its first ones, and what held before it. -/
theorem Safe.run_of_prefix (hRG : ∀ i j, i ≠ j → ∀ w w', G j w w' → R i w w')
    (hsafe : ∀ i, Safe (R i) (G i) (Q i) (c.thread i) c.world) {P : List (Taken τ W) → W → Prop}
    (hP₀ : P [] c.world) (hP : ∀ h w i w', P h w → G i w w' → P (h ++ [⟨i, w, w'⟩]) w')
    (hrun : c.Run h c') {h₁ : List (Taken τ W)} {s : Taken τ W} (hp : h₁ ++ [s] <+: h) :
    P h₁ s.before ∧ G s.thread s.before s.after := by
  obtain ⟨c₁, c₂, hrun₁, hs, hbefore, hafter⟩ := hrun.step_of_prefix hp
  obtain ⟨-, hsafe₁⟩ := Safe.reach hRG hsafe hrun₁.reach
  rw [hbefore, hafter]
  exact ⟨Safe.run hRG hsafe hP₀ hP hrun₁, (Safe.step hRG hsafe₁ hs).1⟩

end Guarantees

/-! ## Phases -/

/-- The program follows the protocol from phase `s`, and what it ends with fits its phase. -/
def Follows (T : σ → W → W → σ → Prop) (F : Except ε α → σ → Prop) : Async W ε α → σ → Prop
  | .ret r, s => F r s
  | .step act k, s => ∀ w b w', act w = some (b, w') → ∃ s', T s w w' s' ∧ Follows T F (k b) s'

namespace Follows

variable {T : σ → W → W → σ → Prop} {F : Except ε α → σ → Prop} {s : σ}

theorem pure {a : α} (h : F (.ok a) s) : Follows T F (Pure.pure a : Async W ε α) s := h

theorem throw {e : ε} (h : F (.error e) s) : Follows T F (MonadExcept.throw e : Async W ε α) s := h

/-- What a program has ended with fits its phase. -/
theorem of_result {p : Async W ε α} {r : Except ε α} (h : Follows T F p s)
    (hr : p.result = some r) : F r s := by
  cases p with
  | ret r' =>
    obtain rfl := Option.some.inj hr
    exact h
  | step act k => simp at hr

theorem await {x : Sync W ε α} (h : ∀ w r w', x w = some (r, w') → ∃ s', T s w w' s' ∧ F r s') :
    Follows T F (Async.await x) s := h

theorem bind {x : Async W ε β} {f : β → Async W ε α} {K : Except ε β → σ → Prop}
    (hx : Follows T K x s) (hf : ∀ b s', K (.ok b) s' → Follows T F (f b) s')
    (he : ∀ e s', K (.error e) s' → F (.error e) s') : Follows T F (x >>= f) s := by
  change Follows T F (x.bind f) s
  induction x generalizing s with
  | ret r =>
    cases r with
    | ok b => exact hf b s hx
    | error e => exact he e s hx
  | step act k ih =>
    intro w b w' hs
    obtain ⟨s', hT, hk⟩ := hx w b w' hs
    exact ⟨s', hT, ih b hk⟩

theorem tryCatch {x : Async W ε α} {h : ε → Async W ε α} {K : Except ε α → σ → Prop}
    (hx : Follows T K x s) (ho : ∀ a s', K (.ok a) s' → F (.ok a) s')
    (hh : ∀ e s', K (.error e) s' → Follows T F (h e) s') :
    Follows T F (MonadExcept.tryCatch x h) s := by
  change Follows T F (x.tryCatch h) s
  induction x generalizing s with
  | ret r =>
    cases r with
    | ok a => exact ho a s hx
    | error e => exact hh e s hx
  | step act k ih =>
    intro w b w' hs
    obtain ⟨s', hT, hk⟩ := hx w b w' hs
    exact ⟨s', hT, ih b hk⟩

/-- Await a segment, and go on from the phase it leads to. -/
theorem await_bind {x : Sync W ε β} {f : β → Async W ε α} {K : Except ε β → σ → Prop}
    (h : ∀ w r w', x w = some (r, w') → ∃ s', T s w w' s' ∧ K r s')
    (hf : ∀ b s', K (.ok b) s' → Follows T F (f b) s')
    (he : ∀ e s', K (.error e) s' → F (.error e) s') : Follows T F (Async.await x >>= f) s :=
  bind (await h) hf he

/-- Where a map of the phases takes each move to one of another protocol, the program follows that
one too. -/
theorem map {σ' : Type} (f : σ → σ') {T' : σ' → W → W → σ' → Prop} {F' : Except ε α → σ' → Prop}
    {p : Async W ε α} (h : Follows T F p s) (hT : ∀ s w w' s', T s w w' s' → T' (f s) w w' (f s'))
    (hF : ∀ r s, F r s → F' r (f s)) : Follows T' F' p (f s) := by
  induction p generalizing s with
  | ret r => exact hF r s h
  | step act k ih =>
    intro w b w' hs
    obtain ⟨s', hm, hk⟩ := h w b w' hs
    exact ⟨f s', hT _ _ _ _ hm, ih b hk⟩

theorem mono {T' : σ → W → W → σ → Prop} {F' : Except ε α → σ → Prop} {p : Async W ε α}
    (h : Follows T F p s) (hT : ∀ s w w' s', T s w w' s' → T' s w w' s')
    (hF : ∀ r s, F r s → F' r s) : Follows T' F' p s :=
  h.map (fun s => s) hT hF

/-- On a part of a larger world, the program follows the protocol there. -/
theorem zoom {V : Type} (get : V → W) (set : V → W → V) {p : Async W ε α}
    (h : Follows T F p s) :
    Follows (fun s v v' s' => ∃ w', T s (get v) w' s' ∧ v' = set v w') F (p.zoom get set) s := by
  induction p generalizing s with
  | ret r => exact h
  | step act k ih =>
    intro v b v' hs
    simp only [Option.map_eq_some_iff, Prod.mk.injEq, Prod.exists] at hs
    obtain ⟨b, w', hb, rfl, rfl⟩ := hs
    obtain ⟨s', hm, hk⟩ := h _ b w' hb
    exact ⟨s', ⟨w', hm, rfl⟩, ih b hk⟩

/-- A program all of whose segments are moves of one phase stays in it. -/
theorem of_each {A : ∀ β : Type, (W → Option (β × W)) → Prop} {p : Async W ε α} (h : p.Each A)
    (hT : ∀ β act, A β act → ∀ w b w', act w = some (b, w') → T s w w' s)
    (hF : ∀ r, F r s) : Follows T F p s := by
  induction p with
  | ret r => exact hF r
  | step act k ih =>
    intro w b w' hb
    exact ⟨s, hT _ act h.1 w b w' hb, ih b (h.2 b)⟩

end Follows

section Threads

variable [DecidableEq τ] {T : τ → σ → W → W → σ → Prop} {F : τ → Except ε α → σ → Prop}
  {c₀ : Config τ W ε α} {p : τ → σ} {I : List (Taken τ W) → (τ → σ) → W → Prop}

/-- A step is a move of the thread that takes it. -/
theorem Follows.step {c c' : Config τ W ε α} {φ : τ → σ}
    (h : ∀ i, Follows (T i) (F i) (c.thread i) (φ i)) {j : τ} (hs : c.step j = some c') :
    ∃ s', T j (φ j) c.world c'.world s'
      ∧ ∀ i, Follows (T i) (F i) (c'.thread i) (Function.update φ j s' i) := by
  obtain ⟨β, act, k, b, hj, hb, ht⟩ := Config.step_eq_some hs
  have hfollows := h j
  rw [hj] at hfollows
  obtain ⟨s', hT, hk⟩ := hfollows _ b _ hb
  refine ⟨s', hT, fun i => ?_⟩
  rw [ht]
  rcases eq_or_ne i j with rfl | hij
  · simpa using hk
  · rw [Function.update_of_ne hij, Function.update_of_ne hij]
    exact h i

/-- What every move keeps holds after every run. -/
theorem Follows.run (h₀ : ∀ i, Follows (T i) (F i) (c₀.thread i) (p i)) (hI₀ : I [] p c₀.world)
    (hstep : ∀ h φ w i w' s', I h φ w → T i (φ i) w w' s' →
      I (h ++ [⟨i, w, w'⟩]) (Function.update φ i s') w')
    {h : List (Taken τ W)} {c : Config τ W ε α} (hrun : c₀.Run h c) :
    ∃ φ, (∀ i, Follows (T i) (F i) (c.thread i) (φ i)) ∧ I h φ c.world := by
  induction hrun with
  | nil => exact ⟨p, h₀, hI₀⟩
  | snoc _ hs ih =>
    obtain ⟨φ, hφ, hI⟩ := ih
    obtain ⟨s', hT, hφ'⟩ := Follows.step hφ hs
    exact ⟨_, hφ', hstep _ φ _ _ _ s' hI hT⟩

/-- Where, under an invariant, a move keeps `P` just if it is good: `P` holds after each step of a
run just if all of them are good. -/
theorem Follows.iff_good (h₀ : ∀ i, Follows (T i) (F i) (c₀.thread i) (p i))
    (hI₀ : I [] p c₀.world)
    (hstep : ∀ h φ w i w' s', I h φ w → T i (φ i) w w' s' →
      I (h ++ [⟨i, w, w'⟩]) (Function.update φ i s') w')
    {P : List (Taken τ W) → W → Prop} {G : List (Taken τ W) → Taken τ W → Prop}
    (hP₀ : P [] c₀.world)
    (hgood : ∀ h φ w i w' s', I h φ w → P h w → T i (φ i) w w' s' →
      (P (h ++ [⟨i, w, w'⟩]) w' ↔ G h ⟨i, w, w'⟩))
    {h : List (Taken τ W)} {c : Config τ W ε α} (hrun : c₀.Run h c) :
    (∀ h₁ c₁, h₁ <+: h → c₀.Run h₁ c₁ → P h₁ c₁.world)
      ↔ ∀ h₁ s, h₁ ++ [s] <+: h → G h₁ s := by
  have hmove : ∀ {h₁ c₁ c₂ i}, c₀.Run h₁ c₁ → c₁.step i = some c₂ → P h₁ c₁.world →
      (P (h₁ ++ [⟨i, c₁.world, c₂.world⟩]) c₂.world ↔ G h₁ ⟨i, c₁.world, c₂.world⟩) := by
    intro h₁ c₁ c₂ i hrun₁ hs hP
    obtain ⟨φ, hφ, hI⟩ := Follows.run h₀ hI₀ hstep hrun₁
    obtain ⟨s', hT, -⟩ := Follows.step hφ hs
    exact hgood h₁ φ _ i _ s' hI hP hT
  constructor
  · rintro hP h₁ ⟨i, w, w'⟩ hp
    obtain ⟨c₁, c₂, hrun₁, hs, rfl, rfl⟩ := hrun.step_of_prefix hp
    exact (hmove hrun₁ hs (hP h₁ c₁ ((List.prefix_append _ _).trans hp) hrun₁)).1
      (hP _ c₂ hp (hrun₁.snoc hs))
  · intro hG h₁ c₁ hp hrun₁
    induction hrun₁ with
    | nil => exact hP₀
    | snoc hr hs ih => exact (hmove hr hs (ih ((List.prefix_append _ _).trans hp))).2 (hG _ _ hp)

end Threads

end Interleave
