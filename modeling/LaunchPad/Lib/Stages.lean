import LaunchPad.Lib.Protocol
import Mathlib.Data.Sum.Basic

/-!
# A system that feeds another

The threads of a first system run on their own world. A thread of the second waits until the first
world has something for it, and then runs on a world of its own with what it got (`Config.feed`).
Whatever of the first world a thread waits for, it stays there once it is there. Then a run of both
is a run of the first system, and a run of the second one with everything handed out from the start
(`Config.run_feed`), so what is known of each system alone holds of them together.
-/

namespace Interleave

variable {W V U ε ε' α α' τ σ ξ : Type}

section Lift

/-- The program on a part of a larger world, with its result put among others. -/
def Async.lift (get : U → W) (set : U → W → U) (f : Except ε α → α') (p : Async W ε α) :
    Async U ε' α' :=
  (p.mapResult fun r => .ok (f r)).zoom get set

theorem Async.result_lift {get : U → W} {set : U → W → U} {f : Except ε α → α'}
    (p : Async W ε α) :
    (p.lift get set f : Async U ε' α').result = p.result.map fun r => .ok (f r) := by
  cases p <;> rfl

variable [DecidableEq τ] {get : U → W} {set : U → W → U} {f : Except ε α → α'}
  {c c' : Config τ U ε' α'} {i : τ}

/-- A step of a lifted program is one of the program itself. -/
theorem Config.step_lift {p : Async W ε α} (ht : c.thread i = p.lift get set f)
    (hs : c.step i = some c') : ∃ (β : Type) (act : W → Option (β × W)) (k : β → Async W ε α)
      (b : β) (w : W), p = .step act k ∧ act (get c.world) = some (b, w)
        ∧ c' = ⟨set c.world w, Function.update c.thread i ((k b).lift get set f)⟩ := by
  unfold Config.step at hs
  rw [ht] at hs
  cases p with
  | ret r => exact absurd hs (by simp [Async.lift, Async.mapResult, Async.zoom])
  | step act k =>
    simp only [Async.lift, Async.mapResult, Async.zoom, Option.map_map] at hs
    obtain ⟨⟨b, w⟩, hb, rfl⟩ := Option.map_eq_some_iff.1 hs
    exact ⟨_, act, k, b, w, rfl, hb, rfl⟩

end Lift

theorem Config.step_of_act [DecidableEq τ] {β : Type} {c : Config τ W ε α} {i : τ}
    {act : W → Option (β × W)} {k : β → Async W ε α} {b : β} {w : W} (ht : c.thread i = .step act k)
    (hb : act c.world = some (b, w)) : c.step i = some ⟨w, Function.update c.thread i (k b)⟩ := by
  simp [Config.step, ht, hb]

section Feed

/-- Wait until the first world has something for the thread. -/
def awaitReady (ready : W → Option ξ) : Sync (W × V) Empty ξ := fun u =>
  (ready u.1).map fun x => (.ok x, u)

/-- A thread of the first system. -/
def Async.upstream (p : Async W ε α) : Async (W × V) Empty (Except ε α ⊕ Except ε' α') :=
  p.lift Prod.fst (fun u w => (w, u.2)) .inl

/-- A thread of the second one, once it has got what it waits for. -/
def Async.downstream (p : Async V ε' α') : Async (W × V) Empty (Except ε α ⊕ Except ε' α') :=
  p.lift Prod.snd (fun u v => (u.1, v)) .inr

/-- The first system, and a second whose threads wait for it. -/
def Config.feed (c : Config τ W ε α) (v : V) (ready : σ → W → Option ξ)
    (p : σ → ξ → Async V ε' α') : Config (τ ⊕ σ) (W × V) Empty (Except ε α ⊕ Except ε' α') where
  world := (c.world, v)
  thread
    | .inl i => (c.thread i).upstream
    | .inr j => do
      let x ← Async.await (awaitReady (ready j))
      (p j x).downstream

variable [DecidableEq τ] [DecidableEq σ]

/-- What a run of both that has come to `d` is for each of them: a run of the first, and a run of the
second with everything handed out from the start, `given` being what has been. -/
structure Fed (c : Config τ W ε α) (v : V) (ready : σ → W → Option ξ) (p : σ → ξ → Async V ε' α')
    (d : Config (τ ⊕ σ) (W × V) Empty (Except ε α ⊕ Except ε' α')) (given : σ → Option ξ) :
    Prop where
  first : ∃ h₁ d₁, c.Run h₁ d₁ ∧ d₁.world = d.world.1
    ∧ ∀ i, d.thread (.inl i) = (d₁.thread i).upstream
  waiting : ∀ j, given j = none → d.thread (.inr j) = (c.feed v ready p).thread (.inr j)
  second : ∀ g : σ → ξ, (∀ j x, given j = some x → g j = x) →
    ∃ h₂ d₂, (⟨v, fun j => p j (g j)⟩ : Config σ V ε' α').Run h₂ d₂ ∧ d₂.world = d.world.2
      ∧ (∀ j, given j = none → d₂.thread j = p j (g j) ∧ ∀ s ∈ h₂, s.thread ≠ j)
      ∧ ∀ j x, given j = some x → d.thread (.inr j) = (d₂.thread j).downstream
  untouched : (∀ j, given j = none) → d.world.2 = v
  ready : ∀ j x, given j = some x → ready j d.world.1 = some x

variable {c : Config τ W ε α} {v : V} {ready : σ → W → Option ξ} {p : σ → ξ → Async V ε' α'}
  {h : List (Taken (τ ⊕ σ) (W × V))}
  {d d' : Config (τ ⊕ σ) (W × V) Empty (Except ε α ⊕ Except ε' α')} {given : σ → Option ξ}

/-- What the first world has for a thread, it keeps. -/
def Keeps (c : Config τ W ε α) (ready : σ → W → Option ξ) : Prop :=
  ∀ h₁ d₁ i d₂, c.Run h₁ d₁ → d₁.step i = some d₂ →
    ∀ j x, ready j d₁.world = some x → ready j d₂.world = some x

/-- A step of the first system. -/
theorem Fed.step_first (hfed : Fed c v ready p d given) (hkeeps : Keeps c ready) {i : τ}
    (hs : d.step (.inl i) = some d') : Fed c v ready p d' given := by
  obtain ⟨h₁, d₁, hrun₁, hw, hthread⟩ := hfed.first
  obtain ⟨β, act, k, b, w, hp, hb, rfl⟩ := Config.step_lift (hthread i) hs
  rw [← hw] at hb
  have hs₁ := Config.step_of_act hp hb
  refine ⟨⟨_, _, hrun₁.snoc hs₁, rfl, fun i' => ?_⟩, fun j hj => ?_, fun g hg => ?_,
    hfed.untouched, fun j x hj => ?_⟩
  · rcases eq_or_ne i' i with rfl | hne
    · simp [Async.upstream]
    · simp only [Function.update_of_ne (Sum.inl_injective.ne hne), Function.update_of_ne hne]
      exact hthread i'
  · simp only [Function.update_of_ne Sum.inr_ne_inl]
    exact hfed.waiting j hj
  · obtain ⟨h₂, d₂, hrun₂, hw₂, hwait, hgiven⟩ := hfed.second g hg
    refine ⟨h₂, d₂, hrun₂, hw₂, hwait, fun j x hj => ?_⟩
    simp only [Function.update_of_ne Sum.inr_ne_inl]
    exact hgiven j x hj
  · exact hkeeps h₁ d₁ i _ hrun₁ hs₁ j x (hw ▸ hfed.ready j x hj)

/-- A thread of the second system gets what it waits for. -/
theorem Fed.step_given (hfed : Fed c v ready p d given) {j : σ} (hj : given j = none)
    (hs : d.step (.inr j) = some d') :
    ∃ x, Fed c v ready p d' (Function.update given j (some x)) := by
  unfold Config.step at hs
  rw [hfed.waiting j hj] at hs
  obtain ⟨q, hq, rfl⟩ := Option.map_eq_some_iff.1 hs
  obtain ⟨x, hx, rfl⟩ := Option.map_eq_some_iff.1 hq
  refine ⟨x, ?_, fun j' hj' => ?_, fun g hg => ?_, fun hnone => ?_, fun j' x' hj' => ?_⟩
  · obtain ⟨h₁, d₁, hrun₁, hw, hthread⟩ := hfed.first
    refine ⟨h₁, d₁, hrun₁, hw, fun i => ?_⟩
    simp only [Function.update_of_ne Sum.inl_ne_inr]
    exact hthread i
  · rcases eq_or_ne j' j with rfl | hne
    · simp at hj'
    · rw [Function.update_of_ne hne] at hj'
      simp only [Function.update_of_ne (Sum.inr_injective.ne hne)]
      exact hfed.waiting j' hj'
  · have hgj : g j = x := hg j x (Function.update_self ..)
    have hold : ∀ j' x', given j' = some x' → g j' = x' := by
      intro j' x' hj'
      have hne : j' ≠ j := fun he => by simp [he, hj] at hj'
      exact hg j' x' (by rwa [Function.update_of_ne hne])
    obtain ⟨h₂, d₂, hrun₂, hw₂, hwait, hgiven⟩ := hfed.second g hold
    refine ⟨h₂, d₂, hrun₂, hw₂, fun j' hj' => ?_, fun j' x' hj' => ?_⟩
    · rcases eq_or_ne j' j with rfl | hne
      · simp at hj'
      · rw [Function.update_of_ne hne] at hj'
        exact hwait j' hj'
    · rcases eq_or_ne j' j with rfl | hne
      · rw [(hwait j' hj).1, hgj]
        simp only [Function.update_self]
        rfl
      · rw [Function.update_of_ne hne] at hj'
        simp only [Function.update_of_ne (Sum.inr_injective.ne hne)]
        exact hgiven j' x' hj'
  · have hself := hnone j
    simp at hself
  · rcases eq_or_ne j' j with rfl | hne
    · rw [Function.update_self, Option.some.injEq] at hj'
      exact hj' ▸ hx
    · rw [Function.update_of_ne hne] at hj'
      exact hfed.ready j' x' hj'

/-- A step of the second system. -/
theorem Fed.step_second (hfed : Fed c v ready p d given) {j : σ} {x : ξ} (hj : given j = some x)
    (hs : d.step (.inr j) = some d') : Fed c v ready p d' given := by
  -- what every choice of `g` says of the step, some choice says
  have hsame : d'.world.1 = d.world.1 ∧ ∀ k, k ≠ .inr j → d'.thread k = d.thread k := by
    obtain ⟨h₂, d₂, -, -, -, hgiven⟩ := hfed.second (fun j' => (given j').getD x)
      fun j' x' hj' => by simp [hj']
    obtain ⟨β, act, k, b, w, -, -, rfl⟩ := Config.step_lift (hgiven j x hj) hs
    exact ⟨rfl, fun k hk => Function.update_of_ne hk _ _⟩
  obtain ⟨hw, hthreads⟩ := hsame
  refine ⟨?_, fun j' hj' => ?_, fun g hg => ?_, fun hnone => ?_, fun j' x' hj' => ?_⟩
  · obtain ⟨h₁, d₁, hrun₁, hw₁, hthread⟩ := hfed.first
    refine ⟨h₁, d₁, hrun₁, hw₁.trans hw.symm, fun i => ?_⟩
    rw [hthreads _ Sum.inl_ne_inr]
    exact hthread i
  · have hne : j' ≠ j := fun he => by simp [he, hj] at hj'
    rw [hthreads _ (Sum.inr_injective.ne hne)]
    exact hfed.waiting j' hj'
  · obtain ⟨h₂, d₂, hrun₂, hw₂, hwait, hgiven⟩ := hfed.second g hg
    obtain ⟨β, act, k, b, v', hp, hb, rfl⟩ := Config.step_lift (hgiven j x hj) hs
    rw [← hw₂] at hb
    have hs₂ := Config.step_of_act hp hb
    refine ⟨_, _, hrun₂.snoc hs₂, rfl, fun j' hj' => ?_, fun j' x' hj' => ?_⟩
    · have hne : j' ≠ j := fun he => by simp [he, hj] at hj'
      simp only [Function.update_of_ne hne]
      refine ⟨(hwait j' hj').1, fun s hs' => ?_⟩
      rcases List.mem_append.1 hs' with hs' | hs'
      · exact (hwait j' hj').2 s hs'
      · rw [List.mem_singleton.1 hs']
        exact hne.symm
    · rcases eq_or_ne j' j with rfl | hne
      · simp [Async.downstream]
      · simp only [Function.update_of_ne hne, Function.update_of_ne (Sum.inr_injective.ne hne)]
        exact hgiven j' x' hj'
  · have hself := hnone j
    rw [hj] at hself
    cases hself
  · rw [hw]
    exact hfed.ready j' x' hj'

theorem Config.run_feed (hkeeps : Keeps c ready) (hrun : (c.feed v ready p).Run h d) :
    ∃ given, Fed c v ready p d given := by
  induction hrun with
  | nil =>
    exact ⟨fun _ => none, ⟨[], c, .nil, rfl, fun _ => rfl⟩, fun _ _ => rfl,
      fun g _ => ⟨[], _, .nil, rfl, fun _ _ => ⟨rfl, nofun⟩, nofun⟩, fun _ => rfl, nofun⟩
  | @snoc _ d₁ d₂ i _ hs ih =>
    obtain ⟨given, hfed⟩ := ih
    rcases i with i | j
    · exact ⟨given, hfed.step_first hkeeps hs⟩
    · rcases hj : given j with _ | x
      · obtain ⟨x, hfed'⟩ := hfed.step_given hj hs
        exact ⟨_, hfed'⟩
      · exact ⟨given, hfed.step_second hj hs⟩

end Feed

end Interleave
