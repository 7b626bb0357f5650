import LaunchPad.Lib.Table

/-!
# A table without some of its transactions

`Erased gone V V'` says that `V'` is `V` without the versions and the locks of the transactions
`gone`. What one of the others does to the table it does to the erased one alike, and what one of
`gone` does short of a COMMIT is not seen there. Where a transaction of `gone` locks only keys that
have no row (`HidesKeys`), also a scan that skips locked rows finds the same in both.
-/

namespace Rows

variable {κ ρ τ : Type}

namespace TxTable

/-- `V'` is what the table `V` would be without the transactions `gone`. -/
structure Erased (gone : τ → Prop) (V V' : TxTable τ κ ρ) : Prop where
  committed : V'.committed = V.committed
  pending : ∀ t, ¬ gone t → V'.pending t = V.pending t
  kept : ∀ k t, ¬ gone t → (V'.lockedBy k = some t ↔ V.lockedBy k = some t)
  dropped : ∀ k t, gone t → V'.lockedBy k ≠ some t

/-- The keys that a transaction of `gone` has locked have no row that any other one sees. -/
structure HidesKeys (gone : τ → Prop) (V : TxTable τ κ ρ) : Prop where
  locked : V.Locked
  committed : ∀ k t, gone t → V.lockedBy k = some t → V.committed.row k = none
  pending : ∀ k t t', gone t → ¬ gone t' → V.lockedBy k = some t → (V.pending t').row k = none

namespace Erased

variable {gone : τ → Prop} {V V' : TxTable τ κ ρ} {t : τ}

theorem ofTable (gone : τ → Prop) (T : Table κ ρ) :
    Erased gone (TxTable.ofTable T) (TxTable.ofTable T) :=
  ⟨rfl, fun _ _ => rfl, fun _ _ _ => Iff.rfl, fun _ _ _ => nofun⟩

theorem free (h : Erased gone V V') {k : κ} (hf : V.Free t k) : V'.Free t k := by
  intro t' ht'
  by_cases hg : gone t'
  · exact absurd ht' (h.dropped k t' hg)
  · exact hf t' ((h.kept k t' hg).1 ht')

section Keys

variable [DecidableEq κ]

theorem view (h : Erased gone V V') (ht : ¬ gone t) : V'.view t = V.view t := by
  rw [TxTable.view, TxTable.view, h.committed, h.pending t ht]

/-- Where only keys without a row are hidden, a row is as free as it was. -/
theorem free_iff (h : Erased gone V V') (hV : HidesKeys gone V) (ht : ¬ gone t) {k : κ} {r : ρ}
    (hr : (V.view t).row k = some r) : V'.Free t k ↔ V.Free t k := by
  refine ⟨fun hf t' ht' => ?_, h.free⟩
  by_cases hg : gone t'
  · rw [TxTable.view, Table.overlay_row, hV.pending k t' t hg ht ht',
      hV.committed k t' hg ht'] at hr
    cases hr
  · exact hf t' ((h.kept k t' hg).2 ht')

theorem lock (h : Erased gone V V') (ht : ¬ gone t) (k : κ) :
    Erased gone (V.lock t k) (V'.lock t k) where
  committed := h.committed
  pending := h.pending
  kept k' t' ht' := by
    rcases eq_or_ne k' k with rfl | hk
    · rw [lock_lockedBy, lock_lockedBy]
    · rw [lockedBy_lock_of_ne V t hk, lockedBy_lock_of_ne V' t hk]
      exact h.kept k' t' ht'
  dropped k' t' ht' := by
    rcases eq_or_ne k' k with rfl | hk
    · rw [lock_lockedBy]
      exact fun he => ht (Option.some.inj he ▸ ht')
    · rw [lockedBy_lock_of_ne V' t hk]
      exact h.dropped k' t' ht'

/-- One of `gone` takes a lock that is free. -/
theorem lock_gone (h : Erased gone V V') (ht : gone t) {k : κ} (hf : V.Free t k) :
    Erased gone (V.lock t k) V' where
  committed := h.committed
  pending := h.pending
  kept k' t' ht' := by
    rw [h.kept k' t' ht']
    exact ((frame_lock hf).lockedBy k' t' fun he => ht' (he ▸ ht)).symm
  dropped := h.dropped

end Keys

variable [DecidableEq τ]

theorem rollback (h : Erased gone V V') (ht : ¬ gone t) :
    Erased gone (V.rollback t) (V'.rollback t) where
  committed := h.committed
  pending t' ht' := by
    simp only [TxTable.rollback, Function.update_apply, h.pending t' ht']
  kept k t' ht' := by
    rcases eq_or_ne t' t with rfl | hne
    · exact ⟨fun h' => absurd h' (rollback_lockedBy_ne V' t' k),
        fun h' => absurd h' (rollback_lockedBy_ne V t' k)⟩
    · rw [(frame_rollback V' t).lockedBy k t' hne, (frame_rollback V t).lockedBy k t' hne]
      exact h.kept k t' ht'
  dropped k t' ht' := by
    have hne : t' ≠ t := fun he => ht (he ▸ ht')
    rw [Ne, (frame_rollback V' t).lockedBy k t' hne]
    exact h.dropped k t' ht'

theorem rollback_gone (h : Erased gone V V') (ht : gone t) : Erased gone (V.rollback t) V' where
  committed := h.committed
  pending t' ht' := by
    rw [h.pending t' ht', (frame_rollback V t).pending t' fun he => ht' (he ▸ ht)]
  kept k t' ht' := by
    rw [h.kept k t' ht', (frame_rollback V t).lockedBy k t' fun he => ht' (he ▸ ht)]
  dropped := h.dropped

variable [DecidableEq κ]

theorem write (h : Erased gone V V') (ht : ¬ gone t) (k : κ) (r : ρ) :
    Erased gone (V.write t k r) (V'.write t k r) where
  committed := h.committed
  pending t' ht' := by
    simp only [TxTable.write, Function.update_apply, h.pending t ht]
    split_ifs
    · rfl
    · exact h.pending t' ht'
  kept := (h.lock ht k).kept
  dropped := (h.lock ht k).dropped

theorem write_gone (h : Erased gone V V') (ht : gone t) {k : κ} (hf : V.Free t k) (r : ρ) :
    Erased gone (V.write t k r) V' where
  committed := h.committed
  pending t' ht' := by
    rw [h.pending t' ht', (frame_write hf r).pending t' fun he => ht' (he ▸ ht)]
  kept := (h.lock_gone ht hf).kept
  dropped := h.dropped

theorem commit (h : Erased gone V V') (ht : ¬ gone t) :
    Erased gone (V.commit t) (V'.commit t) :=
  ⟨h.view ht, (h.rollback ht).pending, (h.rollback ht).kept, (h.rollback ht).dropped⟩

end Erased

namespace HidesKeys

variable {gone : τ → Prop} {V : TxTable τ κ ρ} {t : τ}

theorem ofTable (gone : τ → Prop) (T : Table κ ρ) : HidesKeys gone (TxTable.ofTable T : TxTable τ κ ρ) :=
  ⟨locked_ofTable T, fun _ _ _ => nofun, fun _ _ _ _ _ => nofun⟩

section Keys

variable [DecidableEq κ]

theorem lock (h : HidesKeys gone V) (ht : ¬ gone t) {k : κ} (hf : V.Free t k) :
    HidesKeys gone (V.lock t k) where
  locked := locked_lock h.locked hf
  committed k' t' ht' hl :=
    h.committed k' t' ht' (((frame_lock hf).lockedBy k' t' fun he => ht (he ▸ ht')).1 hl)
  pending k' t' u ht' hu hl :=
    h.pending k' t' u ht' hu (((frame_lock hf).lockedBy k' t' fun he => ht (he ▸ ht')).1 hl)

end Keys

variable [DecidableEq τ]

theorem rollback (h : HidesKeys gone V) (t : τ) : HidesKeys gone (V.rollback t) := by
  have hl : ∀ k t', (V.rollback t).lockedBy k = some t' → V.lockedBy k = some t' := by
    intro k t' hl
    have hne : t' ≠ t := fun he => rollback_lockedBy_ne V t k (he ▸ hl)
    exact ((frame_rollback V t).lockedBy k t' hne).1 hl
  refine ⟨locked_rollback h.locked t, fun k t' ht' hk => h.committed k t' ht' (hl k t' hk),
    fun k t' u ht' hu hk => ?_⟩
  rcases eq_or_ne u t with rfl | hne
  · rw [rollback_pending_self, Table.empty_row]
  · rw [(frame_rollback V t).pending u hne]
    exact h.pending k t' u ht' hu (hl k t' hk)

variable [DecidableEq κ]

theorem write (h : HidesKeys gone V) (ht : ¬ gone t) {k : κ} (hf : V.Free t k) (r : ρ) :
    HidesKeys gone (V.write t k r) where
  locked := locked_write h.locked hf r
  committed := (h.lock ht hf).committed
  pending k' t' u ht' hu hl := by
    have hlock := (h.lock ht hf).pending k' t' u ht' hu hl
    rcases eq_or_ne u t with rfl | hne
    · have hk : k' ≠ k := by
        rintro rfl
        rw [write_lockedBy, lock_lockedBy] at hl
        exact hu (Option.some.inj hl ▸ ht')
      rw [write_pending_self, Table.set_row, if_neg hk]
      exact hlock
    · rw [(frame_write hf r).pending u hne]
      exact hlock

/-- One of `gone` writes a row under a key that has none. -/
theorem write_gone (h : HidesKeys gone V) (ht : gone t) {k : κ} (hf : V.Free t k)
    (hn : V.committed.row k = none) (r : ρ) : HidesKeys gone (V.write t k r) := by
  have hother : ∀ k' t', k' ≠ k → (V.write t k r).lockedBy k' = some t' →
      V.lockedBy k' = some t' := by
    intro k' t' hk hl
    rwa [write_lockedBy, lockedBy_lock_of_ne V t hk] at hl
  refine ⟨locked_write h.locked hf r, fun k' t' ht' hl => ?_, fun k' t' u ht' hu hl => ?_⟩
  · rcases eq_or_ne k' k with rfl | hk
    · exact hn
    · exact h.committed k' t' ht' (hother k' t' hk hl)
  · have hne : u ≠ t := fun he => hu (he ▸ ht)
    rw [(frame_write hf r).pending u hne]
    rcases eq_or_ne k' k with rfl | hk
    · -- a version of `u`'s would be under `u`'s lock
      rcases hp : (V.pending u).row k' with _ | r'
      · rfl
      · exact absurd (hf u (h.locked u k' r' hp)) hne
    · exact h.pending k' t' u ht' hu (hother k' t' hk hl)

theorem commit (h : HidesKeys gone V) (ht : ¬ gone t) : HidesKeys gone (V.commit t) where
  locked := locked_commit h.locked t
  committed k t' ht' hl := by
    have hne : t' ≠ t := fun he => ht (he ▸ ht')
    have hl' := ((frame_rollback V t).lockedBy k t' hne).1 hl
    rw [commit_committed, TxTable.view, Table.overlay_row, h.pending k t' t ht' ht hl',
      h.committed k t' ht' hl']
    rfl
  pending := (h.rollback t).pending

end HidesKeys

end TxTable

end Rows
