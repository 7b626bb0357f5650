import LaunchPad.Lib.Hoare

/-!
# Statements that fail

What a client sees of a transaction. A statement is answered, fails, or loses its answer with the
connection; where it does not succeed, the server has rolled the transaction back. Only a COMMIT
may take effect although its answer is lost. `TxEnds` says what the two ends of one transaction do
to the world.
-/

namespace Interleave

variable {W ε α : Type}

/-- How a statement ends: it is answered, it fails, or its answer is lost with the connection. -/
inductive Fate
  | answered
  | failed
  | answerLost
deriving DecidableEq

/-- The ends of a transaction, and the error of a statement that fails. -/
structure TxEnds (W ε : Type) where
  commit : W → W
  rollback : W → W
  failure : ε

/-- A statement outside a transaction: it takes effect, or fails, or takes effect although its
answer is lost. -/
def autocommit (failure : ε) (fate : Fate) (s : Sync W ε α) : Sync W ε α := fun w =>
  match fate with
  | .answered => s w
  | .failed => some (.error failure, w)
  | .answerLost => (s w).map fun p => (.error failure, p.2)

theorem autocommit_eq_some {failure : ε} {fate : Fate} {s : Sync W ε α} {w w' : W}
    {r : Except ε α} : autocommit failure fate s w = some (r, w') ↔
      (fate = .answered ∧ s w = some (r, w'))
        ∨ (fate = .failed ∧ r = .error failure ∧ w' = w)
        ∨ (fate = .answerLost ∧ r = .error failure ∧ ∃ r', s w = some (r', w')) := by
  unfold autocommit
  rcases fate with _ | _ | _
  · simp
  · simp [eq_comm]
  · simp only [reduceCtorEq, false_and, false_or, true_and, Option.map_eq_some_iff, Prod.mk.injEq,
      Prod.exists]
    constructor
    · rintro ⟨r', _, hs, rfl, rfl⟩
      exact ⟨rfl, r', hs⟩
    · rintro ⟨rfl, r', hs⟩
      exact ⟨r', _, hs, rfl, rfl⟩

theorem wp_autocommit {failure : ε} {fate : Fate} {s : Sync W ε α} {Q : Except ε α → W → Prop}
    {w : W} (hs : s.wp (fun r w' => Q r w' ∧ Q (.error failure) w') w)
    (hfail : Q (.error failure) w) : (autocommit failure fate s).wp Q w := by
  intro r w' hr
  unfold autocommit at hr
  rcases fate with _ | _ | _
  · exact (hs r w' hr).1
  · simp only [Option.some.injEq, Prod.mk.injEq] at hr
    obtain ⟨rfl, rfl⟩ := hr
    exact hfail
  · simp only [Option.map_eq_some_iff, Prod.mk.injEq] at hr
    obtain ⟨⟨r₁, w₁⟩, h, rfl, rfl⟩ := hr
    exact (hs r₁ w₁ h).2

/-- A statement outside a transaction stays within what it is within when it is answered. -/
theorem Within.autocommit {G : W → W → Prop} (hrefl : ∀ w, G w w) {P E : W → Prop}
    {K : α → W → Prop} {s : Sync W ε α} {failure : ε} {fate : Fate}
    (hs : Within G P s (post K fun _ => E)) (hP : ∀ w, P w → E w) (hK : ∀ a w, K a w → E w) :
    Within G P (autocommit failure fate s) (post K fun _ => E) := by
  intro w hw
  refine wp_autocommit (Sync.wp_mono (hs w hw) fun r w' h => ⟨h, h.1, ?_⟩) ⟨hrefl w, hP w hw⟩
  rcases r with e | a
  · exact h.2
  · exact hK a w' h.2

namespace TxEnds

variable (x : TxEnds W ε)

/-- A statement. Where it fails, the transaction is rolled back. -/
def statement (fate : Fate) (s : Sync W ε α) : Sync W ε α := fun w =>
  match fate with
  | .answered =>
    match s w with
    | some (.error e, w') => some (.error e, x.rollback w')
    | r => r
  | _ => some (.error x.failure, x.rollback w)

def beginTx (fate : Fate) : Sync W ε Unit := x.statement fate (pure ())

/-- COMMIT. It may take effect although its answer is lost. -/
def commitTx (fate : Fate) : Sync W ε Unit := fun w =>
  match fate with
  | .answered => some (.ok (), x.commit w)
  | .failed => some (.error x.failure, x.rollback w)
  | .answerLost => some (.error x.failure, x.commit w)

/-- ROLLBACK. Where it fails, the connection is gone and the server rolls back on its own. -/
def rollbackTx (fate : Fate) : Sync W ε Unit := fun w =>
  match fate with
  | .answered => some (.ok (), x.rollback w)
  | _ => some (.error x.failure, x.rollback w)

variable {x} {w : W} {fate : Fate} {Q : Except ε α → W → Prop} {Q₀ : Except ε Unit → W → Prop}

/-- A statement answers, or leaves its transaction rolled back. -/
theorem wp_statement {s : Sync W ε α}
    (hs : s.wp (post (fun a => Q (.ok a)) fun e w' => Q (.error e) (x.rollback w')) w)
    (hfail : Q (.error x.failure) (x.rollback w)) : (x.statement fate s).wp Q w := by
  intro r w' hr
  have hlost : some (Except.error x.failure, x.rollback w) = some (r, w') → Q r w' := by
    intro hr
    simp only [Option.some.injEq, Prod.mk.injEq] at hr
    obtain ⟨rfl, rfl⟩ := hr
    exact hfail
  unfold statement at hr
  rcases fate with _ | _ | _
  · rcases hsw : s w with _ | ⟨e | a, w₁⟩ <;> rw [hsw] at hr <;>
      simp only [reduceCtorEq, Option.some.injEq, Prod.mk.injEq] at hr <;> obtain ⟨rfl, rfl⟩ := hr
    · exact hs _ _ hsw
    · exact hs _ _ hsw
  · exact hlost hr
  · exact hlost hr

/-- A statement and what comes after it, where `P` holds if it is answered and `E` if not. -/
theorem wp_statement_bind {β : Type} {s : Sync W ε β} {f : β → Async W ε α} {P : β → W → Prop}
    (E : W → Prop) (hs : s.wp (post P fun _ => E) w) (hf : ∀ b w', P b w' → (f b).wp Q w')
    (hw : E w) (hE : ∀ e w', E w' → Q (.error e) (x.rollback w')) :
    (Async.await (x.statement fate s) >>= f).wp Q w := by
  rw [Async.wp_await_bind]
  refine wp_statement (Sync.wp_mono hs ?_) (hE _ w hw)
  rintro (e | b) w' h
  · exact hE e w' h
  · exact hf b w' h

theorem wp_commitTx : (x.commitTx fate).wp Q₀ w ↔
    (fate = .answered → Q₀ (.ok ()) (x.commit w))
      ∧ (fate = .failed → Q₀ (.error x.failure) (x.rollback w))
      ∧ (fate = .answerLost → Q₀ (.error x.failure) (x.commit w)) := by
  unfold Sync.wp commitTx
  rcases fate with _ | _ | _ <;> simp

theorem wp_rollbackTx (h : ∀ r, Q₀ r (x.rollback w)) : (x.rollbackTx fate).wp Q₀ w := by
  unfold Sync.wp rollbackTx
  rcases fate with _ | _ | _ <;> simp [h]

theorem isSome_statement {s : Sync W ε α} (hs : (s w).isSome) : (x.statement fate s w).isSome := by
  unfold statement
  rcases fate with _ | _ | _
  · rcases hsw : s w with _ | ⟨_ | _, _⟩
    · simp [hsw] at hs
    · rfl
    · rfl
  · rfl
  · rfl

theorem isSome_commitTx : (x.commitTx fate w).isSome := by
  cases fate <;> rfl

theorem isSome_rollbackTx : (x.rollbackTx fate w).isSome := by
  cases fate <;> rfl

/-- The `catch` that rolls back throws whatever the rollback answers. -/
theorem wp_catch {p : Async W ε α}
    (h : p.wp (post (fun a => Q (.ok a)) fun _ w' => ∀ e, Q (.error e) (x.rollback w')) w) :
    (tryCatch p fun err => do
      Async.await (x.rollbackTx fate)
      throw err).wp Q w := by
  rw [Async.wp_tryCatch]
  refine Async.wp_mono h fun r w' hr => ?_
  rcases r with e | a
  · rw [post_error, Async.wp_await_bind]
    refine wp_rollbackTx fun r => ?_
    rcases r with e' | u
    · exact hr e'
    · exact (Async.wp_throw e).2 (hr e)
  · exact hr

end TxEnds

end Interleave
