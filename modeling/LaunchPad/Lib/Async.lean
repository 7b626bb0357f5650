import Mathlib.Logic.Function.Basic
import Mathlib.Logic.Relation

/-!
# Code that suspends

`Sync` is code that runs without interruption on a shared world: it may find that it has to wait,
answer, or throw, and what it wrote before a throw stays written. `Async` is code that suspends:
a sequence of `Sync` segments, with a scheduling point after each. Run alone, an `Async` program
is the `Sync` code it consists of (`Async.run`); run beside others, a scheduler picks whose
segment comes next (`Config.step`).
-/

namespace Interleave

/-- Code that runs without interruption. It waits where it answers `none`. -/
def Sync (W ε α : Type) : Type := W → Option (Except ε α × W)

namespace Sync

variable {W ε α β : Type}

protected def pure (a : α) : Sync W ε α := fun w => some (.ok a, w)

protected def bind (x : Sync W ε α) (f : α → Sync W ε β) : Sync W ε β := fun w =>
  match x w with
  | none => none
  | some (.error e, w') => some (.error e, w')
  | some (.ok a, w') => f a w'

protected def throw (e : ε) : Sync W ε α := fun w => some (.error e, w)

protected def tryCatch (x : Sync W ε α) (h : ε → Sync W ε α) : Sync W ε α := fun w =>
  match x w with
  | none => none
  | some (.error e, w') => h e w'
  | some (.ok a, w') => some (.ok a, w')

instance : Monad (Sync W ε) where
  pure := Sync.pure
  bind := Sync.bind

instance : MonadExceptOf ε (Sync W ε) where
  throw := Sync.throw
  tryCatch := Sync.tryCatch

/-- The world, read through `f`. -/
def read (f : W → α) : Sync W ε α := fun w => some (.ok (f w), w)

def modify (f : W → W) : Sync W ε Unit := fun w => some (.ok (), f w)

def ofExcept (r : Except ε α) : Sync W ε α := fun w => some (r, w)

/-- The value, or wait for ever where there is none. -/
def ofOption (o : Option α) : Sync W ε α := fun w => o.map fun a => (.ok a, w)

/-- Wait until the world satisfies `p`. -/
def waitFor (p : W → Prop) [DecidablePred p] : Sync W ε Unit := fun w =>
  if p w then some (.ok (), w) else none

/-- The segment run on a part of a larger world. -/
def zoom {V : Type} (get : V → W) (set : V → W → V) (x : Sync W ε α) : Sync V ε α := fun v =>
  (x (get v)).map fun p => (p.1, set v p.2)

@[simp] theorem pure_apply (a : α) (w : W) : (pure a : Sync W ε α) w = some (.ok a, w) := rfl

@[simp] theorem throw_apply (e : ε) (w : W) :
    (throw e : Sync W ε α) w = some (.error e, w) := rfl

@[simp] theorem read_apply (f : W → α) (w : W) : (read f : Sync W ε α) w = some (.ok (f w), w) :=
  rfl

@[simp] theorem modify_apply (f : W → W) (w : W) :
    (modify f : Sync W ε Unit) w = some (.ok (), f w) := rfl

@[simp] theorem ofExcept_apply (r : Except ε α) (w : W) :
    (ofExcept r : Sync W ε α) w = some (r, w) := rfl

theorem bind_apply (x : Sync W ε α) (f : α → Sync W ε β) (w : W) :
    (x >>= f) w = match x w with
      | none => none
      | some (.error e, w') => some (.error e, w')
      | some (.ok a, w') => f a w' := rfl

theorem tryCatch_apply (x : Sync W ε α) (h : ε → Sync W ε α) (w : W) :
    (tryCatch x h) w = match x w with
      | none => none
      | some (.error e, w') => h e w'
      | some (.ok a, w') => some (.ok a, w') := rfl

/-- A sequence answers where both parts answer, or where the first throws. -/
theorem bind_eq_some {x : Sync W ε α} {f : α → Sync W ε β} {w w' : W} {r : Except ε β} :
    (x >>= f) w = some (r, w') ↔
      (∃ a w₁, x w = some (.ok a, w₁) ∧ f a w₁ = some (r, w'))
        ∨ ∃ e, x w = some (.error e, w') ∧ r = .error e := by
  rw [bind_apply]
  rcases x w with _ | ⟨e | a, w₁⟩
  · simp
  · simp only [Option.some.injEq, Prod.mk.injEq, reduceCtorEq, false_and, exists_false, false_or,
      Except.error.injEq]
    constructor
    · rintro ⟨rfl, rfl⟩
      exact ⟨e, ⟨rfl, rfl⟩, rfl⟩
    · rintro ⟨_, ⟨rfl, rfl⟩, rfl⟩
      exact ⟨rfl, rfl⟩
  · simp only [Option.some.injEq, Prod.mk.injEq, Except.ok.injEq, reduceCtorEq, false_and,
      exists_false, or_false]
    constructor
    · exact fun h => ⟨a, w₁, ⟨rfl, rfl⟩, h⟩
    · rintro ⟨_, _, ⟨rfl, rfl⟩, h⟩
      exact h

theorem ext {x y : Sync W ε α} (h : ∀ w, x w = y w) : x = y := funext h

end Sync

/-- Code that suspends: it has ended, or it waits for its next segment to be scheduled. -/
inductive Async (W ε α : Type) : Type 1
  | ret (r : Except ε α)
  | step {β : Type} (act : W → Option (β × W)) (k : β → Async W ε α)

namespace Async

variable {W ε α β : Type}

protected def bind : Async W ε α → (α → Async W ε β) → Async W ε β
  | .ret (.ok a), f => f a
  | .ret (.error e), _ => .ret (.error e)
  | .step act k, f => .step act fun b => (k b).bind f

protected def tryCatch : Async W ε α → (ε → Async W ε α) → Async W ε α
  | .ret (.ok a), _ => .ret (.ok a)
  | .ret (.error e), h => h e
  | .step act k, h => .step act fun b => (k b).tryCatch h

instance : Monad (Async W ε) where
  pure a := .ret (.ok a)
  bind := Async.bind

instance : MonadExceptOf ε (Async W ε) where
  throw e := .ret (.error e)
  tryCatch := Async.tryCatch

/-- Run a segment, and suspend at its end. -/
def await (s : Sync W ε α) : Async W ε α := .step (fun w => s w) .ret

/-- The program run on a part of a larger world. -/
def zoom {V : Type} (get : V → W) (set : V → W → V) : Async W ε α → Async V ε α
  | .ret r => .ret r
  | .step act k =>
    .step (fun v => (act (get v)).map fun p => (p.1, set v p.2)) fun b => (k b).zoom get set

/-- The program with what it ends with changed. -/
def mapResult {ε' α' : Type} (f : Except ε α → Except ε' α') : Async W ε α → Async W ε' α'
  | .ret r => .ret (f r)
  | .step act k => .step act fun b => (k b).mapResult f

/-- The program with its errors changed. -/
def mapError {ε' : Type} (f : ε → ε') (p : Async W ε α) : Async W ε' α :=
  p.mapResult (Except.mapError f)

def runFrom : Async W ε α → W → Option (Except ε α × W)
  | .ret r, w => some (r, w)
  | .step act k, w =>
    match act w with
    | none => none
    | some (b, w') => (k b).runFrom w'

/-- The program run with nothing scheduled in between. -/
def run (p : Async W ε α) : Sync W ε α := fun w => p.runFrom w

/-- What the program ended with, if it has ended. -/
def result : Async W ε α → Option (Except ε α)
  | .ret r => some r
  | .step _ _ => none

@[simp] theorem result_ret (r : Except ε α) : (ret r : Async W ε α).result = some r := rfl

@[simp] theorem result_step (act : W → Option (β × W)) (k : β → Async W ε α) :
    (step act k).result = none := rfl

section Zoom

variable {V : Type} {get : V → W} {set : V → W → V}

@[simp] theorem zoom_pure (a : α) : (pure a : Async W ε α).zoom get set = pure a := rfl

@[simp] theorem zoom_throw (e : ε) : (throw e : Async W ε α).zoom get set = throw e := rfl

@[simp] theorem zoom_await (x : Sync W ε α) :
    (await x).zoom get set = await (x.zoom get set) := rfl

@[simp] theorem zoom_bind (x : Async W ε α) (f : α → Async W ε β) :
    (x >>= f).zoom get set = x.zoom get set >>= fun a => (f a).zoom get set := by
  change (x.bind f).zoom get set = (x.zoom get set).bind _
  induction x with
  | ret r => cases r <;> rfl
  | step act k ih => simp only [Async.bind, zoom, ih]

@[simp] theorem zoom_tryCatch (x : Async W ε α) (h : ε → Async W ε α) :
    (tryCatch x h).zoom get set = tryCatch (x.zoom get set) fun e => (h e).zoom get set := by
  change (x.tryCatch h).zoom get set = (x.zoom get set).tryCatch _
  induction x with
  | ret r => cases r <;> rfl
  | step act k ih => simp only [Async.tryCatch, zoom, ih]

end Zoom

theorem bind_assoc {γ : Type} (x : Async W ε α) (f : α → Async W ε β) (g : β → Async W ε γ) :
    (x >>= f) >>= g = x >>= fun a => f a >>= g := by
  change (x.bind f).bind g = x.bind fun a => (f a).bind g
  induction x with
  | ret r => cases r <;> rfl
  | step act k ih => simp only [Async.bind, ih]

theorem run_step_apply (act : W → Option (β × W)) (k : β → Async W ε α) (w : W) :
    (step act k).run w = match act w with
      | none => none
      | some (b, w') => (k b).run w' := by
  rw [run, runFrom]
  rfl

@[simp] theorem run_ret (r : Except ε α) (w : W) : (ret r).run w = some (r, w) := rfl

@[simp] theorem run_pure (a : α) : (pure a : Async W ε α).run = pure a := rfl

@[simp] theorem run_throw (e : ε) : (throw e : Async W ε α).run = throw e := rfl

@[simp] theorem run_await (s : Sync W ε α) : (await s).run = s := by
  refine Sync.ext fun w => ?_
  rw [await, run_step_apply]
  rcases s w with _ | ⟨r, w'⟩ <;> rfl

@[simp] theorem run_bind (x : Async W ε α) (f : α → Async W ε β) :
    (x >>= f).run = x.run >>= fun a => (f a).run := by
  change (x.bind f).run = _
  induction x with
  | ret r => cases r <;> rfl
  | step act k ih =>
    refine Sync.ext fun w => ?_
    simp only [Async.bind, Sync.bind_apply, run_step_apply]
    rcases act w with _ | ⟨b, w'⟩
    · rfl
    · simp only [ih, Sync.bind_apply]

@[simp] theorem run_tryCatch (x : Async W ε α) (h : ε → Async W ε α) :
    (tryCatch x h).run = tryCatch x.run fun e => (h e).run := by
  change (x.tryCatch h).run = _
  induction x with
  | ret r => cases r <;> rfl
  | step act k ih =>
    refine Sync.ext fun w => ?_
    simp only [Async.tryCatch, Sync.tryCatch_apply, run_step_apply]
    rcases act w with _ | ⟨b, w'⟩
    · rfl
    · simp only [ih, Sync.tryCatch_apply]

end Async

/-- Programs running side by side on one world, one for each thread name. -/
structure Config (τ W ε α : Type) where
  world : W
  thread : τ → Async W ε α

namespace Config

variable {τ W ε α : Type} [DecidableEq τ]

/-- Thread `i` runs its next segment, if it has one and need not wait. -/
def step (c : Config τ W ε α) (i : τ) : Option (Config τ W ε α) :=
  match c.thread i with
  | .ret _ => none
  | .step act k => (act c.world).map fun p => ⟨p.2, Function.update c.thread i (k p.1)⟩

/-- The threads of the schedule run one segment each, in its order. -/
def runSchedule (c : Config τ W ε α) : List τ → Option (Config τ W ε α)
  | [] => some c
  | i :: is => (c.step i).bind fun c' => c'.runSchedule is

/-- The configurations some schedule leads to. -/
def Reach : Config τ W ε α → Config τ W ε α → Prop :=
  Relation.ReflTransGen fun c c' => ∃ i, c.step i = some c'

theorem reach_of_runSchedule : ∀ (is : List τ) {c c' : Config τ W ε α},
    c.runSchedule is = some c' → c.Reach c'
  | [], c, c', h => by
    simp only [runSchedule, Option.some.injEq] at h
    exact h ▸ .refl
  | i :: is, c, c', h => by
    simp only [runSchedule, Option.bind_eq_some_iff] at h
    obtain ⟨c₁, h₁, h₂⟩ := h
    exact .head ⟨i, h₁⟩ (reach_of_runSchedule is h₂)

/-- A step is the segment of the thread that takes it. -/
theorem step_eq_some {c c' : Config τ W ε α} {i : τ} (h : c.step i = some c') :
    ∃ (β : Type) (act : W → Option (β × W)) (k : β → Async W ε α) (b : β),
      c.thread i = .step act k ∧ act c.world = some (b, c'.world)
        ∧ c'.thread = Function.update c.thread i (k b) := by
  unfold step at h
  split at h
  · exact absurd h (by simp)
  · rename_i β act k hi
    simp only [Option.map_eq_some_iff] at h
    obtain ⟨⟨b, w'⟩, hb, rfl⟩ := h
    exact ⟨β, act, k, b, hi, hb, rfl⟩

end Config

end Interleave
