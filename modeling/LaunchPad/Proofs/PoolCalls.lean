import LaunchPad.InventoryPool
import Mathlib.Algebra.Order.Ring.Int
import Mathlib.Data.List.Induction

/-!
# A call on a pool moves it whole or not at all

The quantities of an `InventoryPool` add up to its capacity and none is negative, so what a method
moves adds up again: the check after the writes never throws, and what throws is a check before them.
-/

namespace LaunchPad

open Interleave

namespace InventoryPool

variable {q : ℤ}

theorem positiveInteger_ofInt (hq : 0 < q) : positiveInteger (.ofInt q) = some q := by
  simp [positiveInteger, Number.ofInt, Option.filter, hq]

theorem assertCapacityInvariant_of_sum {pool : InventoryPool}
    (h : pool.availableQuantity + pool.reservedQuantity + pool.soldQuantity = pool.totalCapacity) :
    assertCapacityInvariant pool = some (.ok (), pool) := by
  simp [assertCapacityInvariant, Sync.bind_apply, h]

section Move

variable {notPositive : String} {enoughFor : InventoryPool → ℤ}
  {refusal : InventoryPool → InventoryError} {moved : ℤ → InventoryPool → InventoryPool}
  {n : Number} {pool : InventoryPool}

theorem moveQuantity_of_none (hn : positiveInteger n = none) :
    moveQuantity notPositive enoughFor refusal moved n pool
      = some (.error (.error notPositive), pool) := by
  simp [moveQuantity, hn]

theorem moveQuantity_of_lt (hn : positiveInteger n = some q) (hlt : enoughFor pool < q) :
    moveQuantity notPositive enoughFor refusal moved n pool
      = some (.error (refusal pool), pool) := by
  simp [moveQuantity, hn, Sync.bind_apply, hlt]

theorem moveQuantity_of_le (hn : positiveInteger n = some q) (hle : q ≤ enoughFor pool)
    (hsum : (moved q pool).availableQuantity + (moved q pool).reservedQuantity
      + (moved q pool).soldQuantity = (moved q pool).totalCapacity) :
    moveQuantity notPositive enoughFor refusal moved n pool = some (.ok (), moved q pool) := by
  simp [moveQuantity, hn, Sync.bind_apply, not_lt.2 hle, assertCapacityInvariant_of_sum hsum]

end Move

/-- What `assertCapacityInvariant` throws. -/
def capacityViolated : InventoryError :=
  .error "Capacity invariant violated! Total capacity does not equal Available + Reserved + Sold."

/-- None of the quantities is negative, and they add up to the capacity. -/
structure Balanced (totalCapacity : ℤ) (pool : InventoryPool) : Prop where
  totalCapacity_eq : pool.totalCapacity = totalCapacity
  sum : pool.availableQuantity + pool.reservedQuantity + pool.soldQuantity = totalCapacity
  available_nonneg : 0 ≤ pool.availableQuantity
  reserved_nonneg : 0 ≤ pool.reservedQuantity
  sold_nonneg : 0 ≤ pool.soldQuantity

theorem balanced_create {k : String} {n : Number} {pool : InventoryPool}
    (h : create k n = .ok pool) : Balanced pool.totalCapacity pool := by
  obtain ⟨capacity, hn, rfl⟩ := create_ok h
  exact ⟨rfl, by simp, (pos_of_positiveInteger hn).le, le_rfl, le_rfl⟩

/-- Thrown before it wrote, or a pool that adds up again and has not lost what was sold. -/
def WholeOrNot (totalCapacity : ℤ) (pool : InventoryPool)
    (outcome : Option (Except InventoryError Unit × InventoryPool)) : Prop :=
  (∃ e, outcome = some (.error e, pool) ∧ e ≠ capacityViolated)
    ∨ ∃ pool', outcome = some (.ok (), pool') ∧ Balanced totalCapacity pool'
      ∧ pool.soldQuantity ≤ pool'.soldQuantity

theorem moveQuantity_wholeOrNot {totalCapacity : ℤ} {notPositive : String}
    {enoughFor : InventoryPool → ℤ} {refusal : InventoryPool → InventoryError}
    {moved : ℤ → InventoryPool → InventoryPool} {pool : InventoryPool} (n : Number)
    (hnotPositive : .error notPositive ≠ capacityViolated) (hrefusal : refusal pool ≠ capacityViolated)
    (hmoved : ∀ q, 0 < q → q ≤ enoughFor pool → Balanced totalCapacity (moved q pool)
      ∧ pool.soldQuantity ≤ (moved q pool).soldQuantity) :
    WholeOrNot totalCapacity pool (moveQuantity notPositive enoughFor refusal moved n pool) := by
  rcases hn : positiveInteger n with _ | q
  · exact .inl ⟨_, moveQuantity_of_none hn, hnotPositive⟩
  by_cases hlt : enoughFor pool < q
  · exact .inl ⟨_, moveQuantity_of_lt hn hlt, hrefusal⟩
  · obtain ⟨hbalanced, hsold⟩ := hmoved q (pos_of_positiveInteger hn) (not_lt.1 hlt)
    have hsum := hbalanced.sum.trans hbalanced.totalCapacity_eq.symm
    exact .inr ⟨_, moveQuantity_of_le hn (not_lt.1 hlt) hsum, hbalanced, hsold⟩

/-- The messages of the refusals have another third letter. -/
theorem ne_capacityViolated {message : String} (h : message.toList[2]? = some 'n') :
    InventoryError.error message ≠ capacityViolated := by
  intro heq
  rw [InventoryError.error.inj heq] at h
  exact absurd h (by decide)

theorem run_wholeOrNot {totalCapacity : ℤ} {pool : InventoryPool}
    (h : Balanced totalCapacity pool) (command : PoolCommand) :
    WholeOrNot totalCapacity pool (command.run pool) := by
  obtain ⟨htotal, hsum, havailable, hreserved, hsold⟩ := h
  rcases command with n | n | n
  · refine moveQuantity_wholeOrNot n (by decide) (by simp [capacityViolated]) fun q hq hle => ?_
    exact ⟨⟨htotal, by simp only; omega, by simp only; omega, by simp only; omega, hsold⟩, le_rfl⟩
  · refine moveQuantity_wholeOrNot n (by decide) (ne_capacityViolated (by simp)) fun q hq hle => ?_
    exact ⟨⟨htotal, by simp only; omega, by simp only; omega, by simp only; omega, hsold⟩, le_rfl⟩
  · refine moveQuantity_wholeOrNot n (by decide) (ne_capacityViolated (by simp)) fun q hq hle => ?_
    exact ⟨⟨htotal, by simp only; omega, havailable, by simp only; omega, by simp only; omega⟩,
      by simp only; omega⟩

/-- Calls one after another, with what each returned or threw. -/
inductive Called (pool₀ : InventoryPool) :
    List (PoolCommand × Except InventoryError Unit) → InventoryPool → Prop
  | nil : Called pool₀ [] pool₀
  | call {log : List (PoolCommand × Except InventoryError Unit)} {pool pool' : InventoryPool}
      {command : PoolCommand} {outcome : Except InventoryError Unit} :
      Called pool₀ log pool → command.run pool = some (outcome, pool') →
      Called pool₀ (log ++ [(command, outcome)]) pool'

theorem Called.balanced {totalCapacity : ℤ} {pool₀ pool : InventoryPool}
    {log : List (PoolCommand × Except InventoryError Unit)} (h : Called pool₀ log pool)
    (h₀ : Balanced totalCapacity pool₀) : Balanced totalCapacity pool := by
  induction h with
  | nil => exact h₀
  | call _ hrun ih =>
    rcases run_wholeOrNot ih _ with ⟨e, heq, -⟩ | ⟨pool', heq, hbalanced, -⟩ <;>
      obtain ⟨-, rfl⟩ := Prod.mk.inj (Option.some.inj (heq.symm.trans hrun))
    · exact ih
    · exact hbalanced

/-- Every call returns or throws. -/
theorem exists_called {totalCapacity : ℤ} {pool₀ : InventoryPool}
    (h₀ : Balanced totalCapacity pool₀) (commands : List PoolCommand) :
    ∃ log pool, Called pool₀ log pool ∧ log.map Prod.fst = commands := by
  induction commands using List.reverseRecOn with
  | nil => exact ⟨[], pool₀, .nil, rfl⟩
  | append_singleton commands command ih =>
    obtain ⟨log, pool, hcalled, rfl⟩ := ih
    rcases run_wholeOrNot (hcalled.balanced h₀) command with ⟨e, heq, -⟩ | ⟨pool', heq, -, -⟩
    · exact ⟨_, _, hcalled.call heq, by simp⟩
    · exact ⟨_, _, hcalled.call heq, by simp⟩

end InventoryPool

open InventoryPool

/-- Whatever is called on a pool, with whatever arguments: it adds up after each call, nothing sold
comes back, and a call that throws has written nothing; so the check after the writes never
throws. -/
theorem pool_calls_keep_balance {ticketTypeId : String} {totalCapacity : Number}
    {pool₀ : InventoryPool} (hcreate : create ticketTypeId totalCapacity = .ok pool₀) :
    (∀ commands, ∃ log pool, Called pool₀ log pool ∧ log.map Prod.fst = commands)
      ∧ ∀ log pool, Called pool₀ log pool → Balanced pool₀.totalCapacity pool
        ∧ ∀ (command : PoolCommand) outcome pool', command.run pool = some (outcome, pool') →
          pool.soldQuantity ≤ pool'.soldQuantity
            ∧ ∀ e, outcome = .error e → pool' = pool ∧ e ≠ capacityViolated := by
  have h₀ := balanced_create hcreate
  refine ⟨exists_called h₀, fun log pool hcalled => ?_⟩
  have hbalanced := hcalled.balanced h₀
  refine ⟨hbalanced, fun command outcome pool' hrun => ?_⟩
  rcases run_wholeOrNot hbalanced command with ⟨e, heq, hne⟩ | ⟨pool'', heq, -, hsold⟩ <;>
    obtain ⟨rfl, rfl⟩ := Prod.mk.inj (Option.some.inj (heq.symm.trans hrun))
  · refine ⟨le_rfl, fun e' he => ⟨rfl, ?_⟩⟩
    rwa [← Except.error.inj he]
  · exact ⟨hsold, nofun⟩

/-- Seven seats. -/
theorem pool_calls_keep_balance_seven :
    (∀ commands, ∃ log pool, Called ⟨"tt", 7, 7, 0, 0⟩ log pool ∧ log.map Prod.fst = commands)
      ∧ ∀ log pool, Called ⟨"tt", 7, 7, 0, 0⟩ log pool → Balanced 7 pool
        ∧ ∀ (command : PoolCommand) outcome pool', command.run pool = some (outcome, pool') →
          pool.soldQuantity ≤ pool'.soldQuantity
            ∧ ∀ e, outcome = .error e → pool' = pool ∧ e ≠ capacityViolated :=
  pool_calls_keep_balance (show create "tt" (.ofInt 7) = .ok ⟨"tt", 7, 7, 0, 0⟩ by decide)

end LaunchPad
