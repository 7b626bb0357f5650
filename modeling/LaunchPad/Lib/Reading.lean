import LaunchPad.Lib.Text

/-!
# Readers

A reader takes a value off the front of a text and leaves the rest. What it reads of the text of `x`
before a tail is `f x` (`ReadsBack`); then the items of a list are read back up to an end that none
of them begins with, and with a separator in between. A loop of readers has fuel, and where each
turn shortens the text, as much as the text is long is enough.
-/

namespace Reading

variable {α β γ : Type}

/-- What is found at the front of a text, and the rest. -/
abbrev Reader (α β : Type) := List α → Option (β × List α)

/-- Before such a tail, the text of `x` is read as `f x`. -/
def ReadsBack (read : Reader α γ) (tail : List α → Prop) (text : β → List α) (f : β → γ)
    (x : β) : Prop :=
  ∀ u, tail u → read (text x ++ u) = some (f x, u)

/-- Something is taken off. -/
def Shortens (read : Reader α β) : Prop :=
  ∀ text x rest, read text = some (x, rest) → rest.length < text.length

section Loops

variable [DecidableEq α] (read : Reader α γ) (skip : List α → List α) (sep stop : α)

/-- The items up to `stop`. -/
def itemsUntil : ℕ → Reader α (List γ)
  | 0, _ => none
  | _ + 1, [] => none
  | n + 1, c :: text =>
    if c = stop then some ([], text)
    else match read (c :: text) with
      | none => none
      | some (x, rest) =>
        match itemsUntil n rest with
        | none => none
        | some (xs, rest) => some (x :: xs, rest)

/-- One item or more, with `sep` in between, up to `stop`. -/
def separated : ℕ → Reader α (List γ)
  | 0, _ => none
  | n + 1, text =>
    match read text with
    | none => none
    | some (x, rest) =>
      match skip rest with
      | [] => none
      | c :: rest =>
        if c = stop then some ([x], rest)
        else if c = sep then
          match separated n rest with
          | none => none
          | some (xs, rest) => some (x :: xs, rest)
        else none

end Loops

section ReadsBack

variable [DecidableEq α] {read : Reader α γ} {skip : List α → List α} {sep stop : α}
  {tail : List α → Prop} {text : β → List α} {f : β → γ}

theorem itemsUntil_flatMap (hne : ∀ x, text x ≠ []) (hstop : ∀ x u, text x ≠ stop :: u) :
    ∀ (xs : List β) (n : ℕ) (u : List α), xs.length < n →
      (∀ x ∈ xs, ReadsBack read (fun _ => True) text f x) →
      itemsUntil read stop n (xs.flatMap text ++ stop :: u) = some (xs.map f, u)
  | _, 0, _, hn, _ => absurd hn (Nat.not_lt_zero _)
  | [], n + 1, u, _, _ => by
    rw [List.flatMap_nil, List.nil_append, itemsUntil, if_pos rfl, List.map_nil]
  | x :: xs, n + 1, u, hn, hread => by
    obtain ⟨c, t, ht⟩ := List.exists_cons_of_ne_nil (hne x)
    have hx := hread x List.mem_cons_self (xs.flatMap text ++ stop :: u) trivial
    have hxs := itemsUntil_flatMap hne hstop xs n u (Nat.lt_of_succ_lt_succ hn)
      fun y hy => hread y (List.mem_cons_of_mem x hy)
    have hc : c ≠ stop := by
      rintro rfl
      exact hstop x t ht
    rw [ht, List.cons_append] at hx
    rw [List.flatMap_cons, List.append_assoc, ht, List.cons_append, itemsUntil, if_neg hc, hx]
    simp only [hxs, List.map_cons]

theorem separated_intercalate (hskip : ∀ u, skip (sep :: u) = sep :: u)
    (hskip' : ∀ u, skip (stop :: u) = stop :: u) (hne : sep ≠ stop)
    (hsep : ∀ u, tail (sep :: u)) (hstop : ∀ u, tail (stop :: u)) :
    ∀ (x : β) (xs : List β) (n : ℕ) (u : List α), xs.length < n →
      (∀ y ∈ x :: xs, ReadsBack read tail text f y) →
      separated read skip sep stop n ([sep].intercalate ((x :: xs).map text) ++ stop :: u)
        = some ((x :: xs).map f, u)
  | _, _, 0, _, hn, _ => absurd hn (Nat.not_lt_zero _)
  | x, [], n + 1, u, _, hread => by
    have hx := hread x List.mem_cons_self (stop :: u) (hstop u)
    rw [List.map_singleton, List.intercalate_singleton, separated, hx]
    simp only [hskip', if_true, List.map_singleton]
  | x, y :: ys, n + 1, u, hn, hread => by
    have hys := separated_intercalate hskip hskip' hne hsep hstop y ys n u
      (Nat.lt_of_succ_lt_succ hn) fun z hz => hread z (List.mem_cons_of_mem x hz)
    have hx := hread x List.mem_cons_self _ (hsep ([sep].intercalate ((y :: ys).map text)
      ++ stop :: u))
    have htext : [sep].intercalate ((x :: y :: ys).map text) ++ stop :: u
        = text x ++ sep :: ([sep].intercalate ((y :: ys).map text) ++ stop :: u) := by
      rw [List.map_cons, List.map_cons, List.intercalate_cons_cons]
      simp only [List.append_assoc, List.cons_append, List.nil_append]
    rw [htext, separated, hx]
    simp only [hskip, if_neg hne, if_true, hys]
    rfl

omit [DecidableEq α] in
theorem length_le_intercalate (hne : ∀ x, text x ≠ []) (sep : α) (xs : List β) :
    xs.length ≤ ([sep].intercalate (xs.map text)).length := by
  have hpos : ∀ x, 0 < (text x).length := fun x => List.length_pos_of_ne_nil (hne x)
  rcases xs with _ | ⟨x, xs⟩
  · exact Nat.zero_le _
  · have hflat : xs.length ≤ ((xs.map text).flatMap (sep :: ·)).length := by
      induction xs with
      | nil => exact Nat.zero_le _
      | cons y ys ih =>
        rw [List.map_cons, List.flatMap_cons, List.length_append, List.length_cons,
          List.length_cons]
        omega
    rw [List.map_cons, Text.intercalate_cons, List.length_append, List.length_cons]
    have := hpos x
    omega

omit [DecidableEq α] in
theorem length_text_le_intercalate (sep : α) {x : β} {xs : List β} (hx : x ∈ xs) :
    (text x).length ≤ ([sep].intercalate (xs.map text)).length := by
  induction xs with
  | nil => cases hx
  | cons y ys ih =>
    rw [List.map_cons, Text.intercalate_cons, List.length_append]
    rcases List.mem_cons.1 hx with rfl | hx
    · omega
    · have hle := ih hx
      rcases ys with _ | ⟨z, ys⟩
      · cases hx
      · rw [List.map_cons, Text.intercalate_cons, List.length_append] at hle
        rw [List.map_cons, List.flatMap_cons, List.length_append, List.length_cons]
        omega

end ReadsBack

/-! ## What is read -/

theorem separated_forall [DecidableEq α] {read : Reader α γ} {skip : List α → List α}
    {sep stop : α} {P : γ → Prop} (hread : ∀ text x rest, read text = some (x, rest) → P x) :
    ∀ n text xs rest, separated read skip sep stop n text = some (xs, rest) → ∀ x ∈ xs, P x
  | 0, _, _, _, h => by cases h
  | n + 1, text, xs, rest, h => by
    rw [separated] at h
    rcases hx : read text with _ | ⟨x, rest₁⟩ <;> rw [hx] at h
    · cases h
    have hP := hread _ _ _ hx
    simp only at h
    rcases hc : skip rest₁ with _ | ⟨c, rest₂⟩ <;> rw [hc] at h
    · cases h
    simp only at h
    split_ifs at h
    · obtain ⟨rfl, -⟩ := Prod.mk.inj (Option.some.inj h)
      exact fun y hy => List.mem_singleton.1 hy ▸ hP
    · rcases hxs : separated read skip sep stop n rest₂ with _ | ⟨ys, rest₃⟩ <;> rw [hxs] at h
      · cases h
      · obtain ⟨rfl, -⟩ := Prod.mk.inj (Option.some.inj h)
        intro y hy
        rcases List.mem_cons.1 hy with rfl | hy
        · exact hP
        · exact separated_forall hread n _ _ _ hxs y hy

/-! ## Fuel -/

section Fuel

variable [DecidableEq α] {read read' : Reader α γ} {skip : List α → List α} {sep stop : α}

theorem separated_shortens (hread : Shortens read) (hskip : ∀ u, (skip u).length ≤ u.length) :
    ∀ n, Shortens (separated read skip sep stop n)
  | 0, _, _, _, h => by cases h
  | n + 1, text, xs, rest, h => by
    rw [separated] at h
    rcases hx : read text with _ | ⟨x, rest₁⟩ <;> rw [hx] at h
    · cases h
    have h₁ := hread _ _ _ hx
    have h₂ := hskip rest₁
    simp only at h
    rcases hc : skip rest₁ with _ | ⟨c, rest₂⟩ <;> rw [hc] at h h₂
    · cases h
    rw [List.length_cons] at h₂
    simp only at h
    split_ifs at h
    · obtain ⟨-, rfl⟩ := Prod.mk.inj (Option.some.inj h)
      omega
    · rcases hxs : separated read skip sep stop n rest₂ with _ | ⟨ys, rest₃⟩ <;> rw [hxs] at h
      · cases h
      · obtain ⟨-, rfl⟩ := Prod.mk.inj (Option.some.inj h)
        have := separated_shortens hread hskip n _ _ _ hxs
        omega

/-- Readers that agree on texts that are not longer give the same list, and where the text is not
longer than the fuel, one more does not matter. -/
theorem separated_succ (hread : Shortens read) (hskip : ∀ u, (skip u).length ≤ u.length) :
    ∀ (n : ℕ) (text : List α), text.length ≤ n →
      (∀ t : List α, t.length ≤ text.length → read' t = read t) →
      separated read' skip sep stop (n + 1) text = separated read skip sep stop n text
  | 0, text, hn, hagree => by
    obtain rfl := List.length_eq_zero_iff.1 (Nat.le_zero.1 hn)
    rw [separated, separated, hagree [] (Nat.le_refl 0)]
    rcases hx : read [] with _ | ⟨x, rest⟩
    · rfl
    · exact absurd (hread _ _ _ hx) (Nat.not_lt_zero _)
  | n + 1, text, hn, hagree => by
    rw [separated, separated, hagree text (Nat.le_refl _)]
    rcases hx : read text with _ | ⟨x, rest⟩
    · rfl
    have h₁ := hread _ _ _ hx
    have h₂ := hskip rest
    simp only
    rcases hc : skip rest with _ | ⟨c, rest'⟩
    · rfl
    rw [hc, List.length_cons] at h₂
    have ih := separated_succ hread hskip n rest' (by omega) fun t ht => hagree t (by omega)
    simp only [ih]

theorem itemsUntil_succ (hread : Shortens read) :
    ∀ (n : ℕ) (text : List α), text.length ≤ n →
      itemsUntil read stop (n + 1) text = itemsUntil read stop n text
  | 0, text, hn => by
    obtain rfl := List.length_eq_zero_iff.1 (Nat.le_zero.1 hn)
    rfl
  | n + 1, [], _ => rfl
  | n + 1, c :: text, hn => by
    rw [itemsUntil, itemsUntil]
    rcases hx : read (c :: text) with _ | ⟨x, rest⟩
    · rfl
    have h₁ := hread _ _ _ hx
    have ih := itemsUntil_succ hread n rest (by
      rw [List.length_cons] at h₁ hn
      omega)
    simp only [ih]

theorem itemsUntil_shortens (hread : Shortens read) : ∀ n, Shortens (itemsUntil read stop n)
  | 0, _, _, _, h => by cases h
  | n + 1, [], _, _, h => by cases h
  | n + 1, c :: text, xs, rest, h => by
    rw [itemsUntil] at h
    split_ifs at h
    · obtain ⟨-, rfl⟩ := Prod.mk.inj (Option.some.inj h)
      exact Nat.lt_succ_self _
    rcases hx : read (c :: text) with _ | ⟨x, rest₁⟩ <;> rw [hx] at h
    · cases h
    have h₁ := hread _ _ _ hx
    simp only at h
    rcases hxs : itemsUntil read stop n rest₁ with _ | ⟨ys, rest₂⟩ <;> rw [hxs] at h
    · cases h
    · obtain ⟨-, rfl⟩ := Prod.mk.inj (Option.some.inj h)
      have := itemsUntil_shortens hread n _ _ _ hxs
      omega

end Fuel

end Reading
