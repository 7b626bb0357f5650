import Mathlib.Data.Finset.Card
import Mathlib.Data.Finset.Dedup
import Mathlib.Data.Int.Basic
import Mathlib.Data.List.Sort

/-!
# The first rows in an order

What a query with `ORDER BY key ASC LIMIT n` may answer. Rows with the same key come in any order,
so a database has a choice; a row is among the first whatever it chooses, if fewer than `n` others
come no later.
-/

namespace Rows

variable {κ : Type} [DecidableEq κ]

/-- `picked` are the first `limit` of the candidates, in the order of `key`. -/
def IsBatch (candidates : Finset κ) (key : κ → ℤ) (limit : ℕ) (picked : List κ) : Prop :=
  picked.Nodup ∧ (∀ a ∈ picked, a ∈ candidates)
    ∧ picked.length = min limit candidates.card
    ∧ picked.Pairwise (fun a b => key a ≤ key b)
    ∧ ∀ a ∈ picked, ∀ b ∈ candidates, b ∉ picked → key a ≤ key b

instance (candidates : Finset κ) (key : κ → ℤ) (limit : ℕ) (picked : List κ) :
    Decidable (IsBatch candidates key limit picked) :=
  inferInstanceAs (Decidable (_ ∧ _ ∧ _ ∧ _ ∧ _))

variable {candidates : Finset κ} {key : κ → ℤ} {limit : ℕ} {picked : List κ}

/-- A candidate with fewer than `limit` others no later than it is picked. -/
theorem IsBatch.mem (h : IsBatch candidates key limit picked) {k : κ} (hk : k ∈ candidates)
    (hlimit : (candidates.filter fun j => j ≠ k ∧ key j ≤ key k).card < limit) : k ∈ picked := by
  obtain ⟨hnd, hsub, hlen, -, hmin⟩ := h
  by_contra hno
  have hle : picked.toFinset ⊆ candidates.filter fun j => j ≠ k ∧ key j ≤ key k := by
    intro a ha
    rw [List.mem_toFinset] at ha
    rw [Finset.mem_filter]
    exact ⟨hsub a ha, fun he => hno (he ▸ ha), hmin a ha k hk hno⟩
  have hlt : picked.toFinset.card < candidates.card := by
    refine Finset.card_lt_card (Finset.ssubset_iff_subset_ne.2 ⟨fun a ha => ?_, fun he => ?_⟩)
    · exact hsub a (List.mem_toFinset.1 ha)
    · exact hno (List.mem_toFinset.1 (he ▸ hk))
  have hcard := Finset.card_le_card hle
  rw [List.toFinset_card_of_nodup hnd] at hcard hlt
  omega

omit [DecidableEq κ] in
/-- There is always an answer. -/
theorem exists_isBatch (candidates : Finset κ) (key : κ → ℤ) (limit : ℕ) :
    ∃ picked, IsBatch candidates key limit picked := by
  set sorted := candidates.toList.mergeSort (fun a b => decide (key a ≤ key b))
  have hperm : sorted.Perm candidates.toList := List.mergeSort_perm _ _
  have hnd : sorted.Nodup := hperm.nodup_iff.2 candidates.nodup_toList
  have hmem : ∀ a, a ∈ sorted ↔ a ∈ candidates := fun a => by
    rw [hperm.mem_iff, Finset.mem_toList]
  have hsorted : sorted.Pairwise fun a b => key a ≤ key b := by
    have h : sorted.Pairwise fun a b => decide (key a ≤ key b) = true :=
      List.pairwise_mergeSort (fun a b c hab hbc => by simp only [decide_eq_true_eq] at *; omega)
        (fun a b => by simp only [Bool.or_eq_true, decide_eq_true_eq]; omega) candidates.toList
    exact h.imp fun h => by simpa using h
  rw [← List.take_append_drop limit sorted, List.pairwise_append] at hsorted
  refine ⟨sorted.take limit, hnd.sublist (List.take_sublist _ _), fun a ha => ?_, ?_, hsorted.1,
    fun a ha b hb hno => ?_⟩
  · exact (hmem a).1 (List.mem_of_mem_take ha)
  · rw [List.length_take, hperm.length_eq, Finset.length_toList]
  · refine hsorted.2.2 a ha b ?_
    have hb' : b ∈ sorted.take limit ++ sorted.drop limit := by
      rw [List.take_append_drop]
      exact (hmem b).2 hb
    exact (List.mem_append.1 hb').resolve_left hno

end Rows
