import LaunchPad.Lib.Stages
import Mathlib.Data.Sum.Basic

/-!
# One system inside another

Each thread of a system first runs a program on an outer world, which ends it or lets it through
with something; only then does it run its own program, on a world of its own, and what follows that
runs on the outer world again (`Config.bracket`). Where the outer programs follow a protocol, a run
of it all is a run of the system inside, and what the moves of the protocol keep, and the steps
inside of threads that were let through, holds of the outer world and that run's history
(`Config.run_bracket`).
-/

namespace Interleave

variable {W V ε ε' α α' γ ρ σ τ : Type}

namespace Async

/-- The program on the first part of a world. -/
def onFirst (p : Async W ε ρ) : Async (W × V) ε ρ := p.zoom Prod.fst fun u w => (w, u.2)

/-- The program on the second part of a world, and what follows it. -/
def onSecond (f : Except ε' α' → Async (W × V) ε ρ) : Async V ε' α' → Async (W × V) ε ρ
  | .ret v => f v
  | .step act k =>
    .step (fun u => (act u.2).map fun p => (p.1, (u.1, p.2))) fun b => (k b).onSecond f

/-- The outer program, and where it lets the thread through, `q` and what follows that. -/
def bracket (ended : α → ρ) (after : γ → Except ε' α' → Async W ε ρ) :
    Async W ε (α ⊕ γ) → Async V ε' α' → Async (W × V) ε ρ
  | .ret (.error e), _ => .ret (.error e)
  | .ret (.ok (.inl a)), _ => .ret (.ok (ended a))
  | .ret (.ok (.inr x)), q => q.onSecond fun v => (after x v).onFirst
  | .step act k, q =>
    .step (fun u => (act u.1).map fun p => (p.1, (p.2, u.2))) fun b => (k b).bracket ended after q

end Async

/-- The system, each thread inside the outer program for it. -/
def Config.bracket (ended : α → ρ) (after : τ → γ → Except ε' α' → Async W ε ρ)
    (c₁ : Config τ W ε (α ⊕ γ)) (c₂ : Config τ V ε' α') : Config τ (W × V) ε ρ :=
  ⟨(c₁.world, c₂.world), fun t => (c₁.thread t).bracket ended (after t) (c₂.thread t)⟩

/-- How far a thread has come that is in phase `s`, `q` being what is left of its program inside.
The outer program follows the protocol `T`, and what it ends with fits its phase. -/
inductive Staged (T : σ → W → W → σ → Prop) (K : Except ε (α ⊕ γ) → σ → Prop)
    (F : Except ε' α' → Except ε ρ → σ → Prop) (ended : α → ρ)
    (after : γ → Except ε' α' → Async W ε ρ) (s : σ) : Async (W × V) ε ρ → Async V ε' α' → Prop
  | before (p : Async W ε (α ⊕ γ)) (q : Async V ε' α') (hp : Follows T K p s) :
      Staged T K F ended after s (p.bracket ended after q) q
  | inside (x : γ) (q : Async V ε' α') (hx : K (.ok (.inr x)) s) :
      Staged T K F ended after s (q.onSecond fun v => (after x v).onFirst) q
  | after (v : Except ε' α') (p : Async W ε ρ) (hp : Follows T (F v) p s) :
      Staged T K F ended after s p.onFirst (.ret v)

namespace Staged

variable {T : σ → W → W → σ → Prop} {K : Except ε (α ⊕ γ) → σ → Prop}
  {F : Except ε' α' → Except ε ρ → σ → Prop} {ended : α → ρ}
  {after : γ → Except ε' α' → Async W ε ρ} {s : σ} {p : Async (W × V) ε ρ} {q : Async V ε' α'}

/-- A thread that has ended was not let through, or has come to its end inside. -/
theorem result (h : Staged T K F ended after s p q)
    (hafter : ∀ x s v, K (.ok (.inr x)) s → Follows T (F v) (after x v) s) {r : Except ε ρ}
    (hr : p.result = some r) :
    (∃ e, r = .error e ∧ K (.error e) s) ∨ (∃ a, r = .ok (ended a) ∧ K (.ok (.inl a)) s)
      ∨ ∃ v, q.result = some v ∧ F v r s := by
  have hinside : ∀ {x}, K (.ok (.inr x)) s →
      (q.onSecond fun v => (after x v).onFirst).result = some r →
      ∃ v, q.result = some v ∧ F v r s := by
    intro x hx hq
    cases q with
    | step act k => cases hq
    | ret v =>
      refine ⟨v, rfl, ?_⟩
      have hfollows := hafter x s v hx
      change (Async.onFirst (after x v)).result = some r at hq
      generalize after x v = p at hfollows hq
      cases p with
      | step act k => cases hq
      | ret r' =>
        obtain rfl := Option.some.inj hq
        exact hfollows
  cases h with
  | before p q hp =>
    cases p with
    | step act k => cases hr
    | ret r' =>
      rcases r' with e | a | x
      · exact .inl ⟨e, (Option.some.inj hr).symm, hp⟩
      · exact .inr (.inl ⟨a, (Option.some.inj hr).symm, hp⟩)
      · exact .inr (.inr (hinside hp hr))
  | inside x q hx => exact .inr (.inr (hinside hx hr))
  | after v p hp =>
    cases p with
    | step act k => cases hr
    | ret r' =>
      obtain rfl := Option.some.inj hr
      exact .inr (.inr ⟨v, rfl, hp⟩)

/-- What is left inside takes a step, or what follows it does. -/
theorem step_onSecond (hafter : ∀ x s v, K (.ok (.inr x)) s → Follows T (F v) (after x v) s)
    {x : γ} (hx : K (.ok (.inr x)) s) {β : Type} {act : W × V → Option (β × (W × V))}
    {k : β → Async (W × V) ε ρ} (hp : q.onSecond (fun v => (after x v).onFirst) = .step act k)
    {u u' : W × V} {b : β} (hb : act u = some (b, u')) :
    (∃ s', T s u.1 u'.1 s' ∧ u'.2 = u.2 ∧ Staged T K F ended after s' (k b) q)
      ∨ u'.1 = u.1 ∧ ∃ (β₂ : Type) (act₂ : V → Option (β₂ × V)) (k₂ : β₂ → Async V ε' α') (b₂ : β₂),
        q = .step act₂ k₂ ∧ act₂ u.2 = some (b₂, u'.2)
          ∧ Staged T K F ended after s (k b) (k₂ b₂) := by
  cases q with
  | ret v =>
    have hfollows := hafter x s v hx
    change Async.onFirst (after x v) = .step act k at hp
    generalize after x v = p at hfollows hp
    cases p with
    | ret r => cases hp
    | step act₁ k₁ =>
      cases hp
      obtain ⟨⟨b, w⟩, hb₁, he⟩ := Option.map_eq_some_iff.1 hb
      obtain ⟨rfl, rfl⟩ := Prod.mk.inj he
      obtain ⟨s', hT, hk⟩ := hfollows _ _ _ hb₁
      exact .inl ⟨s', hT, rfl, .after v (k₁ b) hk⟩
  | step act₂ k₂ =>
    cases hp
    obtain ⟨⟨b, v⟩, hb₂, he⟩ := Option.map_eq_some_iff.1 hb
    obtain ⟨rfl, rfl⟩ := Prod.mk.inj he
    exact .inr ⟨rfl, _, act₂, k₂, b, rfl, hb₂, .inside x (k₂ b) hx⟩

/-- A step is a move of the protocol, or a step inside of a thread that was let through. -/
theorem step (h : Staged T K F ended after s p q)
    (hafter : ∀ x s v, K (.ok (.inr x)) s → Follows T (F v) (after x v) s) {β : Type}
    {act : W × V → Option (β × (W × V))} {k : β → Async (W × V) ε ρ} (hp : p = .step act k)
    {u u' : W × V} {b : β} (hb : act u = some (b, u')) :
    (∃ s', T s u.1 u'.1 s' ∧ u'.2 = u.2 ∧ Staged T K F ended after s' (k b) q)
      ∨ (∃ x, K (.ok (.inr x)) s) ∧ u'.1 = u.1
        ∧ ∃ (β₂ : Type) (act₂ : V → Option (β₂ × V)) (k₂ : β₂ → Async V ε' α') (b₂ : β₂),
          q = .step act₂ k₂ ∧ act₂ u.2 = some (b₂, u'.2)
            ∧ Staged T K F ended after s (k b) (k₂ b₂) := by
  cases h with
  | before p q hfollows =>
    cases p with
    | ret r =>
      rcases r with e | a | x
      · cases hp
      · cases hp
      · exact (step_onSecond hafter hfollows hp hb).imp_right fun h => ⟨⟨x, hfollows⟩, h⟩
    | step act₁ k₁ =>
      cases hp
      obtain ⟨⟨b, w⟩, hb₁, he⟩ := Option.map_eq_some_iff.1 hb
      obtain ⟨rfl, rfl⟩ := Prod.mk.inj he
      obtain ⟨s', hT, hk⟩ := hfollows _ _ _ hb₁
      exact .inl ⟨s', hT, rfl, .before (k₁ b) q hk⟩
  | inside x q hx => exact (step_onSecond hafter hx hp hb).imp_right fun h => ⟨⟨x, hx⟩, h⟩
  | after v p hfollows =>
    cases p with
    | ret r => cases hp
    | step act₁ k₁ =>
      cases hp
      obtain ⟨⟨b, w⟩, hb₁, he⟩ := Option.map_eq_some_iff.1 hb
      obtain ⟨rfl, rfl⟩ := Prod.mk.inj he
      obtain ⟨s', hT, hk⟩ := hfollows _ _ _ hb₁
      exact .inl ⟨s', hT, rfl, .after v (k₁ b) hk⟩

end Staged

section Run

variable [DecidableEq τ] {T : τ → σ → W → W → σ → Prop} {K : τ → Except ε (α ⊕ γ) → σ → Prop}
  {F : τ → Except ε' α' → Except ε ρ → σ → Prop} {ended : α → ρ}
  {after : τ → γ → Except ε' α' → Async W ε ρ} {c₁ : Config τ W ε (α ⊕ γ)}
  {c₂ : Config τ V ε' α'} {s₀ : τ → σ} {I : List (Taken τ V) → (τ → σ) → W → Prop}

/-- A run of all of it is a run of the system inside. What every move of the protocol keeps, and
every step inside of a thread that was let through, holds after it, of the outer world and the
history inside. -/
theorem Config.run_bracket (h₀ : ∀ t, Follows (T t) (K t) (c₁.thread t) (s₀ t))
    (hafter : ∀ t x s v, K t (.ok (.inr x)) s → Follows (T t) (F t v) (after t x v) s)
    (hI₀ : I [] s₀ c₁.world)
    (houter : ∀ h₂ φ w t w' s', I h₂ φ w → T t (φ t) w w' s' → I h₂ (Function.update φ t s') w')
    (hinside : ∀ h₂ φ w t x v v', I h₂ φ w → K t (.ok (.inr x)) (φ t) →
      I (h₂ ++ [⟨t, v, v'⟩]) φ w)
    {h : List (Taken τ (W × V))} {d : Config τ (W × V) ε ρ}
    (hrun : (c₁.bracket ended after c₂).Run h d) :
    ∃ h₂ d₂ φ, c₂.Run h₂ d₂ ∧ d₂.world = d.world.2 ∧ I h₂ φ d.world.1
      ∧ ∀ t, Staged (T t) (K t) (F t) ended (after t) (φ t) (d.thread t) (d₂.thread t) := by
  induction hrun with
  | nil => exact ⟨[], c₂, s₀, .nil, rfl, hI₀, fun t => .before _ _ (h₀ t)⟩
  | @snoc h d d' t _ hs ih =>
    obtain ⟨h₂, d₂, φ, hrun₂, hw, hI, hstaged⟩ := ih
    obtain ⟨β, act, k, b, hp, hb, hthread⟩ := step_eq_some hs
    rcases (hstaged t).step (hafter t) hp hb with
      ⟨s', hT, hsame, hnext⟩ | ⟨⟨x, hx⟩, hsame, β₂, act₂, k₂, b₂, hq, hb₂, hnext⟩
    · refine ⟨h₂, d₂, _, hrun₂, hw.trans hsame.symm, houter h₂ φ _ t _ s' hI hT, fun t' => ?_⟩
      rw [hthread]
      rcases eq_or_ne t' t with rfl | hne
      · simpa using hnext
      · rw [Function.update_of_ne hne, Function.update_of_ne hne]
        exact hstaged t'
    · rw [← hw] at hb₂
      refine ⟨_, _, φ, hrun₂.snoc (step_of_act hq hb₂), rfl, ?_, fun t' => ?_⟩
      · rw [hsame]
        exact hinside h₂ φ _ t x _ _ hI hx
      · rw [hthread]
        rcases eq_or_ne t' t with rfl | hne
        · simpa using hnext
        · simp only [Function.update_of_ne hne]
          exact hstaged t'

end Run

end Interleave
