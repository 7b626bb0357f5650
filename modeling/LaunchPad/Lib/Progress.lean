import LaunchPad.Lib.Hoare
import Mathlib.Data.Nat.Notation

/-!
# Bounded progress

`Ends R Q p n w` says of a program `p` at the world `w`: whatever the others do within `R`, none of
its segments has to wait, and after at most `n` of them it has ended, with `Q`. Beside threads that
keep `R`, it therefore ends once it has been scheduled `n` times (`Ends.runSchedule`).

Threads that wait for one another in a circle do not end. There is no circle where whoever holds
one resource and waits for another keeps to an order of the resources (`not_transGen_waitsFor`).
-/

namespace Interleave

open Relation

variable {W ε α β : Type}

/-- The program ends in `Q` within `n` segments while the others stay within `R`. -/
def Ends (R : W → W → Prop) (Q : Except ε α → W → Prop) : Async W ε α → ℕ → W → Prop
  | .ret r, _, w => ∀ w', ReflTransGen R w w' → Q r w'
  | .step _ _, 0, _ => False
  | .step act k, n + 1, w => ∀ w', ReflTransGen R w w' →
      ∃ b w'', act w' = some (b, w'') ∧ Ends R Q (k b) n w''

namespace Ends

variable {R : W → W → Prop} {Q : Except ε α → W → Prop} {n : ℕ} {w : W}

theorem rely {p : Async W ε α} {w' : W} (h : Ends R Q p n w) (hr : ReflTransGen R w w') :
    Ends R Q p n w' := by
  cases p with
  | ret r => exact fun w'' h' => h w'' (hr.trans h')
  | step act k =>
    cases n with
    | zero => exact h
    | succ n => exact fun w'' h' => h w'' (hr.trans h')

theorem ret {r : Except ε α} (hQ : Stable R (Q r)) (hw : Q r w) : Ends R Q (.ret r) n w := by
  cases n <;> exact fun _ hr => hQ.star hw hr

theorem pure {a : α} (hQ : Stable R (Q (.ok a))) (hw : Q (.ok a) w) :
    Ends R Q (Pure.pure a : Async W ε α) n w := ret hQ hw

/-- Await a segment that does not wait, and go on from what it answers. -/
theorem await_bind {s : Sync W ε β} {f : β → Async W ε α} {P : W → Prop} {K : β → W → Prop}
    {E : ε → W → Prop} (hP : Stable R P) (hw : P w)
    (h : ∀ w, P w → ∃ r w', s w = some (r, w') ∧ post K E r w')
    (hf : ∀ b w', K b w' → Ends R Q (f b) n w') (hQ : ∀ e, Stable R (Q (.error e)))
    (he : ∀ e w', E e w' → Q (.error e) w') : Ends R Q (Async.await s >>= f) (n + 1) w := by
  intro w' hr
  obtain ⟨r, w'', hs, hpost⟩ := h w' (hP.star hw hr)
  refine ⟨r, w'', hs, ?_⟩
  cases r with
  | ok b => exact hf b w'' hpost
  | error e => exact ret (hQ e) (he e w'' hpost)

theorem le {p : Async W ε α} {m : ℕ} (h : Ends R Q p n w) (hn : n ≤ m) : Ends R Q p m w := by
  induction p generalizing n m w with
  | ret r => cases m <;> cases n <;> exact h
  | step act k ih =>
    cases n with
    | zero => exact h.elim
    | succ n =>
      cases m with
      | zero => omega
      | succ m =>
        intro w' hr
        obtain ⟨b, w'', hs, hk⟩ := h w' hr
        exact ⟨b, w'', hs, ih b hk (by omega)⟩

theorem bind {x : Async W ε β} {f : β → Async W ε α} {Q' : Except ε β → W → Prop} {m : ℕ}
    (hx : Ends R Q' x n w) (hf : ∀ b w', Q' (.ok b) w' → Ends R Q (f b) m w')
    (he : ∀ e w', Q' (.error e) w' → Q (.error e) w') : Ends R Q (x >>= f) (n + m) w := by
  change Ends R Q (x.bind f) (n + m) w
  induction x generalizing n w with
  | ret r =>
    have hx' : ∀ w', ReflTransGen R w w' → Q' r w' := by cases n <;> exact hx
    cases r with
    | ok b => exact (hf b w (hx' w .refl)).le (by omega)
    | error e =>
      have hQ : ∀ w', ReflTransGen R w w' → Q (.error e) w' := fun w' hr => he e w' (hx' w' hr)
      rcases n + m with _ | _ <;> exact hQ
  | step act k ih =>
    cases n with
    | zero => exact hx.elim
    | succ n =>
      rw [Nat.succ_add]
      intro w' hr
      obtain ⟨b, w'', hs, hk⟩ := hx w' hr
      exact ⟨b, w'', hs, ih b hk⟩

end Ends

section Threads

variable {τ : Type} [DecidableEq τ] {R G : τ → W → W → Prop} {Q : τ → Except ε α → W → Prop}

/-- A step uses up one of the segments of the thread that takes it, and none of another's. -/
theorem Ends.step (hRG : ∀ i j, i ≠ j → ∀ w w', G j w w' → R i w w') {c c' : Config τ W ε α}
    (h : ∀ i, Safe (R i) (G i) (Q i) (c.thread i) c.world) {t j : τ} {n : ℕ}
    {Q' : Except ε α → W → Prop} (hE : Ends (R t) Q' (c.thread t) n c.world)
    (hs : c.step j = some c') :
    if j = t then 0 < n ∧ Ends (R t) Q' (c'.thread t) (n - 1) c'.world
    else Ends (R t) Q' (c'.thread t) n c'.world := by
  have hG := (Safe.step hRG h hs).1
  obtain ⟨β, act, k, b, hj, hb, ht⟩ := Config.step_eq_some hs
  by_cases hjt : j = t
  · subst hjt
    rw [if_pos rfl]
    rw [hj] at hE
    cases n with
    | zero => exact hE.elim
    | succ n =>
      obtain ⟨b', w'', hb', hk⟩ := hE _ .refl
      rw [hb] at hb'
      simp only [Option.some.injEq, Prod.mk.injEq] at hb'
      obtain ⟨rfl, rfl⟩ := hb'
      refine ⟨Nat.succ_pos n, ?_⟩
      rw [ht, Function.update_self]
      exact hk
  · rw [if_neg hjt, ht, Function.update_of_ne (Ne.symm hjt)]
    exact hE.rely (.single (hRG t j (Ne.symm hjt) _ _ hG))

/-- Along every schedule the thread has ended, or has segments left of the `n` and need not wait. -/
theorem Ends.runSchedule (hRG : ∀ i j, i ≠ j → ∀ w w', G j w w' → R i w w') {t : τ}
    {Q' : Except ε α → W → Prop} : ∀ (is : List τ) {n : ℕ} {c c' : Config τ W ε α},
    (∀ i, Safe (R i) (G i) (Q i) (c.thread i) c.world) →
    Ends (R t) Q' (c.thread t) n c.world → c.runSchedule is = some c' →
    (∃ r, (c'.thread t).result = some r ∧ Q' r c'.world)
      ∨ is.count t < n ∧ (c'.step t).isSome
  | [], n, c, c', _, hE, hrun => by
    simp only [Config.runSchedule, Option.some.injEq] at hrun
    subst hrun
    rcases hp : c.thread t with r | ⟨act, k⟩ <;> rw [hp] at hE
    · exact .inl ⟨r, rfl, by cases n <;> exact hE _ .refl⟩
    · cases n with
      | zero => exact hE.elim
      | succ n =>
        obtain ⟨b, w', hb, -⟩ := hE _ .refl
        exact .inr ⟨by simp, by simp [Config.step, hp, hb]⟩
  | i :: is, n, c, c', h, hE, hrun => by
    simp only [Config.runSchedule, Option.bind_eq_some_iff] at hrun
    obtain ⟨c₁, hs, hrun⟩ := hrun
    have h₁ := (Safe.step hRG h hs).2
    have hE₁ := Ends.step hRG h hE hs
    by_cases hit : i = t
    · rw [if_pos hit] at hE₁
      refine (Ends.runSchedule hRG is h₁ hE₁.2 hrun).imp_right fun hleft => ⟨?_, hleft.2⟩
      have hc := hleft.1
      rw [hit, List.count_cons_self]
      omega
    · rw [if_neg hit] at hE₁
      refine (Ends.runSchedule hRG is h₁ hE₁ hrun).imp_right fun hleft => ⟨?_, hleft.2⟩
      rw [List.count_cons_of_ne hit]
      exact hleft.1

end Threads

/-! ## Waiting in a circle -/

section WaitsFor

variable {τ ρ : Type} {wants holds : τ → ρ → Prop} {before : ρ → ρ → Prop}

variable (wants holds) in
/-- Thread `t` waits for something that `t'` holds. -/
def WaitsFor (t t' : τ) : Prop := ∃ r, wants t r ∧ holds t' r

/-- Along a chain of threads that wait for one another, what they wait for goes up. -/
theorem exists_of_transGen_waitsFor
    (horder : ∀ t r r', holds t r → wants t r' → before r r') {t t' : τ}
    (h : TransGen (WaitsFor wants holds) t t') :
    ∃ r r', wants t r ∧ holds t' r' ∧ ReflTransGen before r r' := by
  induction h with
  | single h =>
    obtain ⟨r, hw, hh⟩ := h
    exact ⟨r, r, hw, hh, .refl⟩
  | tail _ h ih =>
    obtain ⟨r, r', hw, hh, hr⟩ := ih
    obtain ⟨r'', hw', hh'⟩ := h
    exact ⟨r, r'', hw, hh', hr.tail (horder _ _ _ hh hw')⟩

/-- Under an order of the resources, nobody waits in a circle. -/
theorem not_transGen_waitsFor (horder : ∀ t r r', holds t r → wants t r' → before r r')
    (hacyclic : ∀ r, ¬ TransGen before r r) (t : τ) : ¬ TransGen (WaitsFor wants holds) t t := by
  intro h
  obtain ⟨r, r', hw, hh, hr⟩ := exists_of_transGen_waitsFor horder h
  exact hacyclic r (.tail' hr (horder t r' r hh hw))

end WaitsFor

end Interleave
