import Mathlib.Data.Int.Notation
import Mathlib.Data.List.Basic

/-!
# Texts made of parts

A text with a separator that its last part does not contain determines both parts, and the decimal
text of an integer determines the integer and contains digits and a sign only. A part that can be
read off before a tail is determined by the text, too; so are the parts of a list, if each can be
read off before the separator and before the end.
-/

namespace Text

variable {α : Type}

/-- Where the separator is in neither of the last parts, they are the same, and so are the first. -/
theorem append_cons_inj {c : α} (u u' : List α) {x x' : List α} (hx : c ∉ x) (hx' : c ∉ x')
    (h : u ++ c :: x = u' ++ c :: x') : u = u' ∧ x = x' := by
  rcases List.append_eq_append_iff.1 h with ⟨a, rfl, ha⟩ | ⟨a, rfl, ha⟩
  · rcases a with _ | ⟨b, a⟩
    · exact ⟨(List.append_nil u).symm, (List.cons.inj ha).2⟩
    · exact absurd (by simp [(List.cons.inj ha).2]) hx
  · rcases a with _ | ⟨b, a⟩
    · exact ⟨List.append_nil u', (List.cons.inj ha).2.symm⟩
    · exact absurd (by simp [(List.cons.inj ha).2]) hx'

/-! ## Parts that can be read off -/

/-- A stretch of characters of a kind, before a tail that does not begin with one. -/
theorem stretch_inj {p : α → Prop} {x x' r r' : List α} (hx : ∀ c ∈ x, p c) (hx' : ∀ c ∈ x', p c)
    (hr : ∀ c ∈ r.head?, ¬p c) (hr' : ∀ c ∈ r'.head?, ¬p c) (h : x ++ r = x' ++ r') :
    x = x' ∧ r = r' := by
  rcases List.append_eq_append_iff.1 h with ⟨a, rfl, rfl⟩ | ⟨a, rfl, rfl⟩
  · rcases a with _ | ⟨c, a⟩
    · exact ⟨(List.append_nil x).symm, rfl⟩
    · exact absurd (hx' c (by simp)) (hr c rfl)
  · rcases a with _ | ⟨c, a⟩
    · exact ⟨List.append_nil x', rfl⟩
    · exact absurd (hx c (by simp)) (hr' c rfl)

section Reads

variable {β γ : Type} (tail : List α → Prop) (text : β → List α) (f : β → γ)

/-- Before a tail, the text of `x` is the text of nothing else, as far as `f` tells. -/
def Reads (x : β) : Prop :=
  ∀ y u v, tail u → tail v → text x ++ u = text y ++ v → f x = f y ∧ u = v

variable {tail text f}

/-- The texts of a list one after the other, up to an end that none of them begins with. -/
theorem flatMap_inj (hread : ∀ x, Reads (fun _ => True) text id x) {stop : α}
    (hstop : ∀ x u v, text x ++ u ≠ stop :: v) :
    ∀ {xs ys : List β} {u v : List α},
      xs.flatMap text ++ stop :: u = ys.flatMap text ++ stop :: v → xs = ys ∧ u = v
  | [], [], u, v, h => ⟨rfl, (List.cons.inj h).2⟩
  | [], y :: ys, u, v, h => by
    rw [List.flatMap_cons, List.append_assoc] at h
    exact absurd h.symm (hstop y _ _)
  | x :: xs, [], u, v, h => by
    rw [List.flatMap_cons, List.append_assoc] at h
    exact absurd h (hstop x _ _)
  | x :: xs, y :: ys, u, v, h => by
    rw [List.flatMap_cons, List.flatMap_cons, List.append_assoc, List.append_assoc] at h
    obtain ⟨hx, hrest⟩ := hread x y _ _ trivial trivial h
    obtain ⟨hxs, huv⟩ := flatMap_inj hread hstop hrest
    exact ⟨by rw [hxs]; exact congrArg (· :: ys) hx, huv⟩

theorem intercalate_cons (sep : α) (x : List α) (xs : List (List α)) :
    [sep].intercalate (x :: xs) = x ++ xs.flatMap (sep :: ·) := by
  induction xs generalizing x with
  | nil => simp
  | cons y ys ih => rw [List.intercalate_cons_cons, ih, List.flatMap_cons]; simp

variable {sep stop : α} (hne : sep ≠ stop) (hsep : ∀ u, tail (sep :: u))
  (hstop : ∀ u, tail (stop :: u))
include hne hsep hstop

/-- The rest of a list, each text behind a separator. -/
theorem separated_inj : ∀ {xs ys : List β} {u v : List α}, (∀ x ∈ xs, Reads tail text f x) →
    (xs.map text).flatMap (sep :: ·) ++ stop :: u
      = (ys.map text).flatMap (sep :: ·) ++ stop :: v → xs.map f = ys.map f ∧ u = v
  | [], [], u, v, _, h => ⟨rfl, (List.cons.inj h).2⟩
  | [], y :: ys, u, v, _, h => absurd (List.cons.inj h).1 hne.symm
  | x :: xs, [], u, v, _, h => absurd (List.cons.inj h).1 hne
  | x :: xs, y :: ys, u, v, hread, h => by
    have htail : ∀ (zs : List β) w, tail ((zs.map text).flatMap (sep :: ·) ++ stop :: w)
      | [], w => hstop w
      | z :: zs, w => hsep _
    simp only [List.map_cons, List.flatMap_cons, List.cons_append, List.append_assoc] at h
    obtain ⟨hx, hrest⟩ := hread x List.mem_cons_self y _ _ (htail xs u) (htail ys v)
      (List.cons.inj h).2
    obtain ⟨hxs, huv⟩ := separated_inj (fun x hx => hread x (List.mem_cons_of_mem _ hx)) hrest
    exact ⟨by rw [List.map_cons, List.map_cons, hx, hxs], huv⟩

/-- A list with separators in between, up to an end that no text begins with. -/
theorem intercalate_inj (hbegin : ∀ x u v, text x ++ u ≠ stop :: v) {xs ys : List β}
    {u v : List α} (hread : ∀ x ∈ xs, Reads tail text f x)
    (h : [sep].intercalate (xs.map text) ++ stop :: u
      = [sep].intercalate (ys.map text) ++ stop :: v) : xs.map f = ys.map f ∧ u = v := by
  rcases xs with _ | ⟨x, xs⟩ <;> rcases ys with _ | ⟨y, ys⟩
  · exact ⟨rfl, (List.cons.inj h).2⟩
  · rw [List.map_cons, intercalate_cons, List.append_assoc] at h
    exact absurd h.symm (hbegin y _ _)
  · rw [List.map_cons, intercalate_cons, List.append_assoc] at h
    exact absurd h (hbegin x _ _)
  · refine separated_inj hne hsep hstop hread ?_
    rw [List.map_cons, List.map_cons, intercalate_cons, intercalate_cons] at h
    simpa using congrArg (sep :: ·) h

end Reads

/-! ## Decimals -/

theorem isDigit_of_mem_repr {n : ℕ} {c : Char} (h : c ∈ n.repr.toList) : c.isDigit = true := by
  rw [Nat.toList_repr] at h
  exact Nat.isDigit_of_mem_toDigits (by decide) (Nat.le_refl 10) h

theorem repr_injective {m n : ℕ} (h : m.repr = n.repr) : m = n := by
  have hdigits := congrArg (fun s => Nat.ofDigitChars 10 s.toList 0) h
  simpa using hdigits

theorem isDigit_or_eq_minus_of_mem {n : ℤ} {c : Char} (h : c ∈ (toString n).toList) :
    c.isDigit = true ∨ c = '-' := by
  rw [Int.toString_eq_repr, Int.repr_eq_if] at h
  split at h
  · exact .inl (isDigit_of_mem_repr h)
  · rw [String.toList_append, List.mem_append] at h
    rcases h with h | h
    · exact .inr (by simpa using h)
    · exact .inl (isDigit_of_mem_repr h)

/-- Nothing a number is separated from others by is in its text. -/
theorem notMem_toString (n : ℤ) {c : Char} (hc : c.isDigit = false) (hminus : c ≠ '-') :
    c ∉ (toString n).toList := by
  intro h
  rcases isDigit_or_eq_minus_of_mem h with h | h
  · rw [hc] at h
    cases h
  · exact hminus h

theorem minus_notMem_repr (n : ℕ) : '-' ∉ n.repr.toList := by
  intro h
  cases isDigit_of_mem_repr h

theorem toString_injective {m n : ℤ} (h : toString m = toString n) : m = n := by
  rw [Int.toString_eq_repr, Int.toString_eq_repr, Int.repr_eq_if, Int.repr_eq_if] at h
  split at h <;> split at h
  · have := repr_injective h
    omega
  · refine absurd ?_ (minus_notMem_repr m.toNat)
    rw [h]
    simp
  · refine absurd ?_ (minus_notMem_repr n.toNat)
    rw [← h]
    simp
  · have := repr_injective ((String.append_right_inj _).1 h)
    omega

end Text
