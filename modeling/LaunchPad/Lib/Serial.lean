import Mathlib.Data.List.Basic
import Mathlib.Order.Basic

/-!
# One after the other

Labelled steps of a relation, taken one after the other. A list of labels with steps that change
nothing in between has the same ends without them.
-/

namespace Interleave

variable {L M S T : Type}

/-- The labels take `s` to `s'`, one after the other. -/
inductive Serial (A : L → S → S → Prop) : S → List L → S → Prop
  | nil {s : S} : Serial A s [] s
  | cons {s s' s'' : S} {l : L} {ls : List L} (h : A l s s') (hs : Serial A s' ls s'') :
      Serial A s (l :: ls) s''

namespace Serial

variable {A : L → S → S → Prop} {s s' s'' : S} {l : L} {ls : List L}

theorem snoc (hs : Serial A s ls s') (h : A l s' s'') : Serial A s (ls ++ [l]) s'' := by
  induction hs with
  | nil => exact .cons h .nil
  | cons h' _ ih => exact .cons h' (ih h)

/-- Some of the labels, and then the rest. -/
theorem split {ls' : List L} (hs : Serial A s (ls ++ ls') s') :
    ∃ s₁, Serial A s ls s₁ ∧ Serial A s₁ ls' s' := by
  induction ls generalizing s with
  | nil => exact ⟨s, .nil, hs⟩
  | cons l ls ih =>
    cases hs with
    | cons h hs =>
      obtain ⟨s₁, hfirst, hrest⟩ := ih hs
      exact ⟨s₁, .cons h hfirst, hrest⟩

/-- What a step keeps, all of them keep. -/
theorem invariant {I : S → Prop} (hstep : ∀ l s s', A l s s' → I s → I s')
    (hs : Serial A s ls s') (h : I s) : I s' := by
  induction hs with
  | nil => exact h
  | cons h' _ ih => exact ih (hstep _ _ _ h' h)

/-- Labels whose steps change nothing may be left out. -/
theorem filter {keep : L → Bool} (hs : Serial A s ls s')
    (hidle : ∀ l ∈ ls, keep l = false → ∀ s s', A l s s' → s' = s) :
    Serial A s (ls.filter keep) s' := by
  induction hs with
  | nil => exact .nil
  | @cons s s₁ s₂ l ls h _ ih =>
    have ih := ih fun l' hl' => hidle l' (List.mem_cons_of_mem _ hl')
    rcases hk : keep l with _ | _
    · obtain rfl := hidle l List.mem_cons_self hk s s₁ h
      simpa [hk] using ih
    · simpa [hk] using Serial.cons h ih

/-- Steps that another relation simulates, under its own labels. -/
theorem simulate {B : M → T → T → Prop} {R : S → T → Prop} {f : L → M}
    (hstep : ∀ l s s' t, A l s s' → R s t → ∃ t', B (f l) t t' ∧ R s' t') {t : T}
    (hs : Serial A s ls s') (hR : R s t) : ∃ t', Serial B t (ls.map f) t' ∧ R s' t' := by
  induction hs generalizing t with
  | nil => exact ⟨t, .nil, hR⟩
  | cons h _ ih =>
    obtain ⟨t₁, hB, hR₁⟩ := hstep _ _ _ _ h hR
    obtain ⟨t', hs', hR'⟩ := ih hR₁
    exact ⟨t', .cons hB hs', hR'⟩

/-- What no step lowers is at the end at least what any step brought it to. -/
theorem le_of_mem {P : Type} [Preorder P] (rank : S → P) (bound : L → P)
    (hstep : ∀ l s s', A l s s' → rank s ≤ rank s' ∧ bound l ≤ rank s') (hs : Serial A s ls s') :
    rank s ≤ rank s' ∧ ∀ l ∈ ls, bound l ≤ rank s' := by
  induction hs with
  | nil => exact ⟨le_rfl, by simp⟩
  | cons h _ ih =>
    obtain ⟨hrank, hbound⟩ := hstep _ _ _ h
    refine ⟨hrank.trans ih.1, fun l hl => ?_⟩
    rcases List.mem_cons.1 hl with rfl | hl
    · exact hbound.trans ih.1
    · exact ih.2 l hl

end Serial

end Interleave
