import Mathlib.Algebra.Order.Floor.Div
import Mathlib.Data.Int.CardIntervalMod

/-!
# Taking turns

A cursor that goes round `n` places one by one, from wherever it stands: in `k` turns each place is
picked `k / n` times, or once more where `n` does not divide `k`.
-/

namespace RoundRobin

/-- The places picked in so many turns, from a cursor that may point past the end. -/
def picks (n : ℕ) : ℕ → ℕ → List ℕ
  | _, 0 => []
  | cursor, turns + 1 => cursor % n :: picks n ((cursor + 1) % n) turns

theorem picks_eq (n : ℕ) : ∀ (turns cursor : ℕ),
    picks n cursor turns = (List.range turns).map fun j => (cursor + j) % n
  | 0, _ => rfl
  | turns + 1, cursor => by
    rw [picks, picks_eq n turns, List.range_succ_eq_map, List.map_cons, List.map_map, add_zero]
    congr 1
    refine List.map_congr_left fun j _ => ?_
    have hsum : cursor + 1 + j = cursor + (j + 1) := by omega
    simp only [Function.comp_apply, Nat.mod_add_mod, hsum, Nat.succ_eq_add_one]

theorem lt_of_mem_picks {n i : ℕ} (hn : 0 < n) : ∀ (turns : ℕ) {cursor : ℕ},
    i ∈ picks n cursor turns → i < n
  | turns + 1, cursor, h => by
    rcases List.mem_cons.1 h with rfl | h
    · exact Nat.mod_lt _ hn
    · exact lt_of_mem_picks hn turns h

theorem ceilDiv_of_mod_pos {k n : ℕ} (hn : 0 < n) (h : 0 < k % n) : k ⌈/⌉ n = k / n + 1 := by
  have hsum : k + n - 1 = n * (k / n + 1) + (k % n - 1) := by
    have := Nat.div_add_mod k n
    have hmul : n * (k / n + 1) = n * (k / n) + n := by ring
    omega
  have hlt : k % n - 1 < n := by
    have := Nat.mod_lt k hn
    omega
  rw [Nat.ceilDiv_eq_add_pred_div, hsum, Nat.mul_add_div hn, Nat.div_eq_of_lt hlt, add_zero]

/-- A place is picked as often as its turn comes. -/
theorem count_picks {n i : ℕ} (hi : i < n) (turns cursor : ℕ) :
    (picks n cursor turns).count i = turns / n
      ∨ (picks n cursor turns).count i = turns ⌈/⌉ n := by
  have hn : 0 < n := i.zero_le.trans_lt hi
  -- the first turn that is `i`'s, counted from the cursor
  let first := i + (n - cursor % n)
  have hfirst : ∀ j, (cursor + j) % n = i ↔ j ≡ first [MOD n] := by
    intro j
    have hstart : cursor + first ≡ i [MOD n] := by
      have hmod : cursor % n ≤ n := (Nat.mod_lt cursor hn).le
      have hsum : cursor + first = i + n * (cursor / n + 1) := by
        have := Nat.div_add_mod cursor n
        have hmul : n * (cursor / n + 1) = n * (cursor / n) + n := by ring
        omega
      rw [hsum]
      exact Nat.add_modEq_left_iff.2 (dvd_mul_right n _)
    constructor
    · intro h
      have hj : cursor + j ≡ i [MOD n] := by rw [Nat.ModEq, h, Nat.mod_eq_of_lt hi]
      exact Nat.ModEq.add_left_cancel' cursor (hj.trans hstart.symm)
    · intro h
      have hj : cursor + j ≡ i [MOD n] := (h.add_left cursor).trans hstart
      exact Eq.trans hj (Nat.mod_eq_of_lt hi)
  have hcount : (picks n cursor turns).count i = turns.count (· ≡ first [MOD n]) := by
    rw [picks_eq, List.count, List.countP_map, Nat.count]
    refine List.countP_congr fun j _ => ?_
    simpa using hfirst j
  rw [hcount, Nat.count_modEq_card _ hn]
  split
  · rename_i hmore
    exact .inr (ceilDiv_of_mod_pos hn (Nat.zero_lt_of_lt hmore)).symm
  · exact .inl (add_zero _)

end RoundRobin
