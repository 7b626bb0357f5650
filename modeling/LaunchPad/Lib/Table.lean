import Mathlib.Algebra.BigOperators.Group.Finset.Basic
import Mathlib.Algebra.Order.BigOperators.Group.Finset
import Mathlib.Data.Int.Basic

/-!
# Tables under row locks

A `Table` is a finite map from keys to rows. A `TxTable` is a table as a database at READ
COMMITTED keeps it for its open transactions: the committed rows, the versions each transaction
has written and not committed, and the transaction that holds each row's lock. A transaction sees
its own versions over the committed rows (`TxTable.view`); committing makes its view of the rows
it wrote the committed one, and both ends of a transaction release its locks.

What a transaction may do to a table is `TxTable.Frame`: it touches neither the versions nor the
locks of the others, nor the committed version of a row another one has locked.
-/

namespace Rows

open scoped BigOperators

variable {κ ρ τ : Type}

/-- Finitely many rows, by key. -/
structure Table (κ ρ : Type) where
  row : κ → Option ρ
  keys : Finset κ
  mem_keys : ∀ k, k ∈ keys ↔ (row k).isSome

namespace Table

def empty : Table κ ρ := ⟨fun _ => none, ∅, by simp⟩

/-- The total of `f` over the rows. -/
def sum (T : Table κ ρ) (f : ρ → ℤ) : ℤ := ∑ k ∈ T.keys, (T.row k).elim 0 f

/-- Every row changed by `f`. -/
def mapRows (T : Table κ ρ) (f : κ → ρ → ρ) : Table κ ρ where
  row k := (T.row k).map (f k)
  keys := T.keys
  mem_keys k := by rw [T.mem_keys, Option.isSome_map]

@[simp] theorem mapRows_row (T : Table κ ρ) (f : κ → ρ → ρ) (k : κ) :
    (T.mapRows f).row k = (T.row k).map (f k) := rfl

@[simp] theorem empty_row (k : κ) : (empty : Table κ ρ).row k = none := rfl

@[simp] theorem empty_keys : (empty : Table κ ρ).keys = ∅ := rfl

@[simp] theorem sum_empty (f : ρ → ℤ) : (empty : Table κ ρ).sum f = 0 := rfl

@[ext] theorem ext {T U : Table κ ρ} (h : ∀ k, T.row k = U.row k) : T = U := by
  have hk : T.keys = U.keys := by
    ext k
    rw [T.mem_keys, U.mem_keys, h]
  cases T; cases U
  simp only [mk.injEq]
  exact ⟨funext h, hk⟩

theorem row_eq_none_of_notMem {T : Table κ ρ} {k : κ} (h : k ∉ T.keys) : T.row k = none := by
  simpa [T.mem_keys] using h

theorem mem_keys_of_row {T : Table κ ρ} {k : κ} {r : ρ} (h : T.row k = some r) : k ∈ T.keys :=
  (T.mem_keys k).2 (by simp [h])

/-- The total may be taken over any keys that include the table's. -/
theorem sum_eq_of_subset {T : Table κ ρ} {s : Finset κ} (h : T.keys ⊆ s) (f : ρ → ℤ) :
    T.sum f = ∑ k ∈ s, (T.row k).elim 0 f := by
  refine Finset.sum_subset h fun k _ hk => ?_
  rw [row_eq_none_of_notMem hk, Option.elim_none]

theorem sum_nonneg (T : Table κ ρ) {f : ρ → ℤ} (h : ∀ r, 0 ≤ f r) : 0 ≤ T.sum f := by
  refine Finset.sum_nonneg fun k _ => ?_
  cases T.row k with
  | none => rfl
  | some r => exact h r

variable [DecidableEq κ]

def set (T : Table κ ρ) (k : κ) (r : ρ) : Table κ ρ where
  row := Function.update T.row k (some r)
  keys := insert k T.keys
  mem_keys k' := by
    rcases eq_or_ne k' k with rfl | h
    · simp
    · simp [h, T.mem_keys]

def erase (T : Table κ ρ) (k : κ) : Table κ ρ where
  row := Function.update T.row k none
  keys := T.keys.erase k
  mem_keys k' := by
    rcases eq_or_ne k' k with rfl | h
    · simp
    · simp [h, T.mem_keys]

/-- The rows of `U`, and those of `T` where `U` has none. -/
def overlay (T U : Table κ ρ) : Table κ ρ where
  row k := (U.row k).or (T.row k)
  keys := T.keys ∪ U.keys
  mem_keys k := by
    rw [Finset.mem_union, T.mem_keys, U.mem_keys, Option.isSome_or, Bool.or_eq_true, or_comm]

@[simp] theorem set_row_self (T : Table κ ρ) (k : κ) (r : ρ) : (T.set k r).row k = some r := by
  simp [set]

theorem set_row (T : Table κ ρ) (k k' : κ) (r : ρ) :
    (T.set k r).row k' = if k' = k then some r else T.row k' := by
  simp [set, Function.update_apply]

theorem set_row_eq_some {T : Table κ ρ} {k k' : κ} {r r' : ρ} :
    (T.set k r).row k' = some r' ↔ k' = k ∧ r' = r ∨ k' ≠ k ∧ T.row k' = some r' := by
  rw [set_row]
  split_ifs with hk
  · simp [hk, eq_comm]
  · simp [hk]

/-- A row for a key that has one already changes nothing. -/
theorem row_or_of_isSome {T : Table κ ρ} {k : κ} (h : (T.row k).isSome) (k' : κ) (r : ρ) :
    (T.row k').or (if k = k' then some r else none) = T.row k' := by
  split_ifs with hk
  · obtain ⟨r', hr'⟩ := Option.isSome_iff_exists.1 h
    rw [← hk, hr']
    rfl
  · exact Option.or_none

/-- A new key has its row, and the others what they had. -/
theorem set_row_of_none {T : Table κ ρ} {k : κ} (h : T.row k = none) (k' : κ) (r : ρ) :
    (T.set k r).row k' = (T.row k').or (if k = k' then some r else none) := by
  rw [set_row]
  rcases eq_or_ne k' k with rfl | hk
  · rw [if_pos rfl, if_pos rfl, h]
    rfl
  · rw [if_neg hk, if_neg hk.symm, Option.or_none]

/-- The rows written one after the other. -/
def setAll (T : Table κ ρ) (rows : List (κ × ρ)) : Table κ ρ := rows.foldl (fun U p => U.set p.1 p.2) T

theorem setAll_row_of_notMem : ∀ {rows : List (κ × ρ)} {T : Table κ ρ} {k : κ},
    (∀ p ∈ rows, p.1 ≠ k) → (T.setAll rows).row k = T.row k
  | [], _, _, _ => rfl
  | p :: rows, T, k, h => by
    change ((T.set p.1 p.2).setAll rows).row k = _
    rw [setAll_row_of_notMem fun q hq => h q (List.mem_cons_of_mem p hq), set_row,
      if_neg (Ne.symm (h p (List.mem_cons_self ..)))]

theorem setAll_row_of_mem : ∀ {rows : List (κ × ρ)} {T : Table κ ρ} {p : κ × ρ},
    rows.Pairwise (fun a b => a.1 ≠ b.1) → p ∈ rows → (T.setAll rows).row p.1 = some p.2
  | q :: rows, T, p, hd, hp => by
    change ((T.set q.1 q.2).setAll rows).row p.1 = _
    rw [List.pairwise_cons] at hd
    rcases List.mem_cons.1 hp with rfl | hp
    · rw [setAll_row_of_notMem fun a ha => (hd.1 a ha).symm, set_row_self]
    · exact setAll_row_of_mem hd.2 hp

/-- Distinct rows are written: a row is one of them, or an old one. -/
theorem setAll_row_eq_some {rows : List (κ × ρ)} {T : Table κ ρ} {k : κ} {r : ρ}
    (hd : rows.Pairwise fun a b => a.1 ≠ b.1) :
    (T.setAll rows).row k = some r ↔ (k, r) ∈ rows ∨ (∀ p ∈ rows, p.1 ≠ k) ∧ T.row k = some r := by
  by_cases hk : ∃ p ∈ rows, p.1 = k
  · obtain ⟨p, hp, rfl⟩ := hk
    rw [setAll_row_of_mem hd hp]
    constructor
    · intro h
      rw [← Option.some.inj h]
      exact .inl hp
    · rintro (h | ⟨h, -⟩)
      · rw [← setAll_row_of_mem (T := T) hd hp, setAll_row_of_mem (p := (p.1, r)) hd h]
      · exact absurd rfl (h p hp)
  · push Not at hk
    rw [setAll_row_of_notMem hk]
    constructor
    · exact fun h => .inr ⟨hk, h⟩
    · rintro (h | ⟨-, h⟩)
      · exact absurd rfl (hk _ h)
      · exact h

theorem erase_row (T : Table κ ρ) (k k' : κ) :
    (T.erase k).row k' = if k' = k then none else T.row k' := by
  simp [erase, Function.update_apply]

@[simp] theorem overlay_row (T U : Table κ ρ) (k : κ) :
    (T.overlay U).row k = (U.row k).or (T.row k) := rfl

theorem overlay_row_of_none {T U : Table κ ρ} {k : κ} (h : U.row k = none) :
    (T.overlay U).row k = T.row k := by simp [h]

@[simp] theorem overlay_empty (T : Table κ ρ) : T.overlay empty = T := by
  ext1 k
  simp

theorem overlay_set_empty (T : Table κ ρ) (k : κ) (r : ρ) :
    T.overlay (empty.set k r) = T.set k r := by
  ext1 k'
  rw [overlay_row, set_row, set_row]
  split_ifs <;> simp

/-- Overlaying changes the total by what changes at the keys of the overlay. -/
theorem sum_overlay (T U : Table κ ρ) (f : ρ → ℤ) :
    (T.overlay U).sum f
      = T.sum f + ∑ k ∈ U.keys, ((U.row k).elim 0 f - (T.row k).elim 0 f) := by
  have hT : T.sum f = ∑ k ∈ T.keys ∪ U.keys, (T.row k).elim 0 f :=
    sum_eq_of_subset Finset.subset_union_left f
  have hU : ∑ k ∈ U.keys, ((U.row k).elim 0 f - (T.row k).elim 0 f)
      = ∑ k ∈ T.keys ∪ U.keys, (((T.overlay U).row k).elim 0 f - (T.row k).elim 0 f) := by
    refine (Finset.sum_congr rfl fun k hk => ?_).trans
      (Finset.sum_subset Finset.subset_union_right fun k _ hk => ?_)
    · obtain ⟨r, hr⟩ := Option.isSome_iff_exists.1 ((U.mem_keys k).1 hk)
      simp [hr]
    · rw [overlay_row_of_none (row_eq_none_of_notMem hk), sub_self]
  rw [hU, hT, ← Finset.sum_add_distrib]
  exact Finset.sum_congr rfl fun k _ => (add_sub_cancel _ _).symm

/-- Writing a row changes the total by what changes at its key. -/
theorem sum_set (T : Table κ ρ) (k : κ) (r : ρ) (f : ρ → ℤ) :
    (T.set k r).sum f = T.sum f + (f r - (T.row k).elim 0 f) := by
  rw [← overlay_set_empty, sum_overlay]
  simp [set]

end Table

/-- A table with the open transactions' versions and locks. -/
structure TxTable (τ κ ρ : Type) where
  committed : Table κ ρ
  pending : τ → Table κ ρ
  lockedBy : κ → Option τ

namespace TxTable

/-- The table with no transaction open. -/
def ofTable (T : Table κ ρ) : TxTable τ κ ρ := ⟨T, fun _ => .empty, fun _ => none⟩

/-- No other transaction holds the row's lock. -/
def Free (V : TxTable τ κ ρ) (t : τ) (k : κ) : Prop := ∀ t', V.lockedBy k = some t' → t' = t

instance [DecidableEq τ] (V : TxTable τ κ ρ) (t : τ) (k : κ) : Decidable (V.Free t k) :=
  match h : V.lockedBy k with
  | none => .isTrue fun t' h' => by simp [h] at h'
  | some t' =>
    if ht : t' = t then .isTrue fun t'' h' => by simp_all
    else .isFalse fun hf => ht (hf t' h)

/-- A version is written under its row's lock. -/
def Locked (V : TxTable τ κ ρ) : Prop :=
  ∀ t k r, (V.pending t).row k = some r → V.lockedBy k = some t

/-- What transaction `t` may do to the table. -/
structure Frame (t : τ) (V V' : TxTable τ κ ρ) : Prop where
  pending : ∀ t', t' ≠ t → V'.pending t' = V.pending t'
  lockedBy : ∀ k t', t' ≠ t → (V'.lockedBy k = some t' ↔ V.lockedBy k = some t')
  committed : ∀ k t', t' ≠ t → V.lockedBy k = some t' → V'.committed.row k = V.committed.row k

theorem locked_ofTable (T : Table κ ρ) : (ofTable T : TxTable τ κ ρ).Locked := by
  intro t k r h
  simp [ofTable] at h

/-- What the versions of `t` would change of the total of `f`. -/
def pendingSum (V : TxTable τ κ ρ) (t : τ) (f : ρ → ℤ) : ℤ :=
  ∑ k ∈ (V.pending t).keys, (((V.pending t).row k).elim 0 f - (V.committed.row k).elim 0 f)

theorem pendingSum_of_empty {V : TxTable τ κ ρ} {t : τ} (h : V.pending t = .empty) (f : ρ → ℤ) :
    V.pendingSum t f = 0 := by
  rw [pendingSum, h, Table.empty_keys, Finset.sum_empty]

/-- The versions of a transaction change the total by as much whatever the others do. -/
theorem Frame.pendingSum_eq {t t' : τ} {V V' : TxTable τ κ ρ} (h : Frame t' V V') (ht : t ≠ t')
    (hV : V.Locked) (f : ρ → ℤ) : V'.pendingSum t f = V.pendingSum t f := by
  rw [pendingSum, pendingSum, h.pending t ht]
  refine Finset.sum_congr rfl fun k hk => ?_
  obtain ⟨r, hr⟩ := Option.isSome_iff_exists.1 (((V.pending t).mem_keys k).1 hk)
  rw [h.committed k t ht (hV t k r hr)]

theorem Frame.refl (t : τ) (V : TxTable τ κ ρ) : Frame t V V :=
  ⟨fun _ _ => rfl, fun _ _ _ => Iff.rfl, fun _ _ _ _ => rfl⟩

theorem Frame.trans {t : τ} {V₁ V₂ V₃ : TxTable τ κ ρ} (h : Frame t V₁ V₂) (h' : Frame t V₂ V₃) :
    Frame t V₁ V₃ where
  pending t' ht := (h'.pending t' ht).trans (h.pending t' ht)
  lockedBy k t' ht := (h'.lockedBy k t' ht).trans (h.lockedBy k t' ht)
  committed k t' ht hl :=
    (h'.committed k t' ht ((h.lockedBy k t' ht).2 hl)).trans (h.committed k t' ht hl)

section Locks

variable [DecidableEq κ]

/-- What transaction `t` sees. -/
def view (V : TxTable τ κ ρ) (t : τ) : Table κ ρ := V.committed.overlay (V.pending t)

def lock (V : TxTable τ κ ρ) (t : τ) (k : κ) : TxTable τ κ ρ :=
  { V with lockedBy := Function.update V.lockedBy k (some t) }

@[simp] theorem lock_committed (V : TxTable τ κ ρ) (t : τ) (k : κ) :
    (V.lock t k).committed = V.committed := rfl

@[simp] theorem lock_pending (V : TxTable τ κ ρ) (t : τ) (k : κ) :
    (V.lock t k).pending = V.pending := rfl

@[simp] theorem lock_lockedBy (V : TxTable τ κ ρ) (t : τ) (k : κ) :
    (V.lock t k).lockedBy k = some t := by simp [lock]

theorem lockedBy_lock_of_ne (V : TxTable τ κ ρ) (t : τ) {k k' : κ} (h : k' ≠ k) :
    (V.lock t k).lockedBy k' = V.lockedBy k' := by simp [lock, Function.update_of_ne h]

theorem eq_or_lockedBy_of_lock {V : TxTable τ κ ρ} {t t' : τ} {k k' : κ}
    (h : (V.lock t k).lockedBy k' = some t') : k' = k ∨ V.lockedBy k' = some t' := by
  rcases eq_or_ne k' k with hk | hk
  · exact .inl hk
  · exact .inr (lockedBy_lock_of_ne V t hk ▸ h)

theorem view_sum (V : TxTable τ κ ρ) (t : τ) (f : ρ → ℤ) :
    (V.view t).sum f = V.committed.sum f + V.pendingSum t f := Table.sum_overlay _ _ f

theorem free_lock {V : TxTable τ κ ρ} {t : τ} {k' : κ} (h : V.Free t k') (k : κ) :
    (V.lock t k).Free t k' := by
  intro t' ht'
  rcases eq_or_ne k' k with rfl | hk
  · rw [lock_lockedBy] at ht'
    exact (Option.some.inj ht').symm
  · rw [lockedBy_lock_of_ne V t hk] at ht'
    exact h t' ht'

theorem frame_lock {V : TxTable τ κ ρ} {t : τ} {k : κ} (h : V.Free t k) :
    Frame t V (V.lock t k) where
  pending _ _ := rfl
  committed _ _ _ _ := rfl
  lockedBy k' t' ht := by
    rcases eq_or_ne k' k with rfl | hk
    · rw [lock_lockedBy]
      exact ⟨fun h' => absurd (Option.some.inj h').symm ht, fun h' => absurd (h t' h') ht⟩
    · rw [lockedBy_lock_of_ne V t hk]

theorem locked_lock {V : TxTable τ κ ρ} (hV : V.Locked) {t : τ} {k : κ} (h : V.Free t k) :
    (V.lock t k).Locked := by
  intro t' k' r hp
  rcases eq_or_ne k' k with rfl | hk
  · rw [lock_lockedBy, h t' (hV t' k' r hp)]
  · rw [lockedBy_lock_of_ne V t hk]
    exact hV t' k' r hp

end Locks

section Close

variable [DecidableEq τ]

/-- The lock of every row `t` holds is free again, and `t` has no versions left. -/
def rollback (V : TxTable τ κ ρ) (t : τ) : TxTable τ κ ρ :=
  { V with
    pending := Function.update V.pending t .empty
    lockedBy := fun k => if V.lockedBy k = some t then none else V.lockedBy k }

@[simp] theorem rollback_committed (V : TxTable τ κ ρ) (t : τ) :
    (V.rollback t).committed = V.committed := rfl

@[simp] theorem rollback_pending_self (V : TxTable τ κ ρ) (t : τ) :
    (V.rollback t).pending t = .empty := by simp [rollback]

theorem rollback_lockedBy_ne (V : TxTable τ κ ρ) (t : τ) (k : κ) :
    (V.rollback t).lockedBy k ≠ some t := by
  simp only [rollback]
  split_ifs with h
  · simp
  · exact h

theorem frame_rollback (V : TxTable τ κ ρ) (t : τ) : Frame t V (V.rollback t) where
  pending t' ht := by simp [rollback, Function.update_of_ne ht]
  committed _ _ _ _ := rfl
  lockedBy k t' ht := by
    simp only [rollback]
    split_ifs with h
    · rw [h]
      simp [Ne.symm ht]
    · rfl

theorem locked_rollback {V : TxTable τ κ ρ} (hV : V.Locked) (t : τ) :
    (V.rollback t).Locked := by
  intro t' k r h
  rcases eq_or_ne t' t with rfl | ht
  · simp at h
  · rw [(frame_rollback V t).pending t' ht] at h
    exact ((frame_rollback V t).lockedBy k t' ht).2 (hV t' k r h)

end Close

variable [DecidableEq τ] [DecidableEq κ]

/-- Transaction `t` writes a version of the row, and holds its lock. -/
def write (V : TxTable τ κ ρ) (t : τ) (k : κ) (r : ρ) : TxTable τ κ ρ :=
  { V.lock t k with pending := Function.update V.pending t ((V.pending t).set k r) }

def commit (V : TxTable τ κ ρ) (t : τ) : TxTable τ κ ρ :=
  { V.rollback t with committed := V.view t }

@[simp] theorem write_committed (V : TxTable τ κ ρ) (t : τ) (k : κ) (r : ρ) :
    (V.write t k r).committed = V.committed := rfl

@[simp] theorem write_pending_self (V : TxTable τ κ ρ) (t : τ) (k : κ) (r : ρ) :
    (V.write t k r).pending t = (V.pending t).set k r := by simp [write]

@[simp] theorem write_lockedBy (V : TxTable τ κ ρ) (t : τ) (k : κ) (r : ρ) :
    (V.write t k r).lockedBy = (V.lock t k).lockedBy := rfl

@[simp] theorem commit_committed (V : TxTable τ κ ρ) (t : τ) :
    (V.commit t).committed = V.view t := rfl

@[simp] theorem commit_pending_self (V : TxTable τ κ ρ) (t : τ) :
    (V.commit t).pending t = .empty := rollback_pending_self V t

theorem free_write {V : TxTable τ κ ρ} {t : τ} {k' : κ} (h : V.Free t k') (k : κ) (r : ρ) :
    (V.write t k r).Free t k' := free_lock h k

/-- A first version of a row counts for its difference from the committed one. -/
theorem pendingSum_write {V : TxTable τ κ ρ} {t : τ} {k : κ} (h : (V.pending t).row k = none)
    (r : ρ) (f : ρ → ℤ) :
    (V.write t k r).pendingSum t f
      = V.pendingSum t f + (f r - (V.committed.row k).elim 0 f) := by
  have hk : k ∉ (V.pending t).keys := by
    rw [(V.pending t).mem_keys, h]
    simp
  rw [pendingSum, write_pending_self, write_committed, show ((V.pending t).set k r).keys
    = insert k (V.pending t).keys from rfl, Finset.sum_insert hk, Table.set_row_self,
    Option.elim_some, add_comm]
  congr 1
  refine Finset.sum_congr rfl fun k' hk' => ?_
  rw [Table.set_row, if_neg (ne_of_mem_of_not_mem hk' hk)]

theorem frame_write {V : TxTable τ κ ρ} {t : τ} {k : κ} (h : V.Free t k) (r : ρ) :
    Frame t V (V.write t k r) where
  pending t' ht := by simp [write, Function.update_of_ne ht]
  committed _ _ _ _ := rfl
  lockedBy := (frame_lock h).lockedBy

theorem locked_write {V : TxTable τ κ ρ} (hV : V.Locked) {t : τ} {k : κ} (h : V.Free t k)
    (r : ρ) : (V.write t k r).Locked := by
  intro t' k' r' hp
  rw [write_lockedBy]
  rcases eq_or_ne t' t with rfl | ht
  · rw [write_pending_self, Table.set_row] at hp
    split_ifs at hp with hk
    · rw [hk, lock_lockedBy]
    · exact locked_lock hV h t' k' r' hp
  · rw [(frame_write h r).pending t' ht] at hp
    exact locked_lock hV h t' k' r' hp

theorem frame_commit {V : TxTable τ κ ρ} (hV : V.Locked) (t : τ) : Frame t V (V.commit t) where
  pending := (frame_rollback V t).pending
  lockedBy := (frame_rollback V t).lockedBy
  committed k t' ht hl := by
    -- a version of `t`'s would be under `t`'s lock
    have hn : (V.pending t).row k = none := by
      rcases hp : (V.pending t).row k with _ | r
      · rfl
      · rw [hV t k r hp] at hl
        exact absurd (Option.some.inj hl).symm ht
    simp [view, hn]

theorem locked_commit {V : TxTable τ κ ρ} (hV : V.Locked) (t : τ) : (V.commit t).Locked :=
  fun t' k r h => locked_rollback hV t t' k r h

/-! ### One transaction at a time -/

/-- No transaction but `t` is open on the table. -/
structure Solo (t : τ) (V : TxTable τ κ ρ) : Prop where
  pending : ∀ t', t' ≠ t → V.pending t' = .empty
  free : ∀ k, V.Free t k

omit [DecidableEq τ] [DecidableEq κ] in
theorem solo_ofTable (t : τ) (T : Table κ ρ) : Solo t (ofTable T) :=
  ⟨fun _ _ => rfl, fun _ _ h => by simp [ofTable] at h⟩

namespace Solo

variable {t : τ} {V : TxTable τ κ ρ}

omit [DecidableEq τ] in
theorem lock (h : Solo t V) (k : κ) : Solo t (V.lock t k) :=
  ⟨h.pending, fun k' => free_lock (h.free k') k⟩

theorem write (h : Solo t V) (k : κ) (r : ρ) : Solo t (V.write t k r) where
  pending t' ht := ((frame_write (h.free k) r).pending t' ht).trans (h.pending t' ht)
  free k' := free_write (h.free k') k r

omit [DecidableEq κ] in
/-- With its last transaction rolled back, the table is as committed. -/
theorem rollback_eq (h : Solo t V) : V.rollback t = ofTable V.committed := by
  unfold rollback ofTable
  congr 1
  · funext t'
    rcases eq_or_ne t' t with rfl | ht
    · simp
    · rw [Function.update_of_ne ht, h.pending t' ht]
  · funext k
    rcases hl : V.lockedBy k with _ | t'
    · simp
    · simp [h.free k t' hl]

theorem commit_eq (h : Solo t V) : V.commit t = ofTable (V.view t) := by
  unfold commit
  rw [h.rollback_eq]
  rfl

end Solo

end TxTable

end Rows
