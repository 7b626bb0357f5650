import Mathlib.Logic.Function.Basic
import Mathlib.Tactic.SplitIfs

/-!
# Records kept under their own keys

A `Repository` is a map from keys to records in which every record stands under its own key, so
that saving a record needs no key, and a key found is the key of what was found.
-/

namespace Rows

/-- Records by key, each under its own. -/
structure Repository {κ α : Type} (key : α → κ) where
  get : κ → Option α
  get_key : ∀ {k a}, get k = some a → key a = k

namespace Repository

variable {κ α : Type} {key : α → κ}

def empty : Repository key := ⟨fun _ => none, by simp⟩

@[simp] theorem empty_get (k : κ) : (empty : Repository key).get k = none := rfl

@[ext] theorem ext {R S : Repository key} (h : ∀ k, R.get k = S.get k) : R = S := by
  cases R; cases S
  simp only [mk.injEq]
  exact funext h

variable [DecidableEq κ]

def save (R : Repository key) (a : α) : Repository key where
  get := Function.update R.get (key a) (some a)
  get_key {k b} h := by
    rcases eq_or_ne k (key a) with rfl | hk
    · rw [Function.update_self] at h
      rw [Option.some.inj h]
    · rw [Function.update_of_ne hk] at h
      exact R.get_key h

theorem get_save (R : Repository key) (a : α) (k : κ) :
    (R.save a).get k = if k = key a then some a else R.get k := by
  simp [save, Function.update_apply]

@[simp] theorem get_save_self (R : Repository key) (a : α) : (R.save a).get (key a) = some a := by
  simp [get_save]

theorem get_save_of_ne {R : Repository key} {a : α} {k : κ} (h : k ≠ key a) :
    (R.save a).get k = R.get k := by rw [get_save, if_neg h]

/-- Saving what is stored changes nothing. -/
theorem save_get {R : Repository key} {k : κ} {a : α} (h : R.get k = some a) : R.save a = R := by
  ext1 k'
  rw [get_save]
  split_ifs with hk
  · rw [hk, R.get_key h, h]
  · rfl

/-- The later of two records with one key stays. -/
theorem save_save {R : Repository key} {a b : α} (h : key a = key b) :
    (R.save a).save b = R.save b := by
  ext1 k
  simp only [get_save, h]
  split_ifs <;> rfl

end Repository

end Rows
