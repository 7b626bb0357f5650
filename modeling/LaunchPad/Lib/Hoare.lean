import LaunchPad.Lib.RelyGuarantee

/-!
# Postconditions

`Sync.wp s Q w` says that what `s` answers at `w`, and the world it leaves, satisfy `Q`;
`Async.wp` says it of a program that runs with nothing scheduled in between. The rewriting rules
take a program apart from its front, so that `simp` with them leaves what has to be shown of the
data alone. Where a segment waits there is no answer, and nothing to show.

`Within G P s Q` adds that `s` stays within `G`: it is what a segment has to satisfy to be awaited
(`Safe.of_within`), and for a reflexive and transitive `G` it composes.

`Along P Q p w` says of a program that runs alone that each state it comes to satisfies `P`, not the
last one only.
-/

namespace Interleave

variable {W ε α β : Type}

/-- `P` of what is returned, `E` of what is thrown. -/
def post (P : α → W → Prop) (E : ε → W → Prop) : Except ε α → W → Prop
  | .ok a, w => P a w
  | .error e, w => E e w

@[simp] theorem post_ok {P : α → W → Prop} {E : ε → W → Prop} {a : α} {w : W} :
    post P E (.ok a) w ↔ P a w := Iff.rfl

@[simp] theorem post_error {P : α → W → Prop} {E : ε → W → Prop} {e : ε} {w : W} :
    post P E (.error e) w ↔ E e w := Iff.rfl

/-- A postcondition of what is returned only. -/
abbrev onOk (P : α → W → Prop) : Except ε α → W → Prop := post P fun _ _ => True

namespace Sync

def wp (s : Sync W ε α) (Q : Except ε α → W → Prop) (w : W) : Prop :=
  ∀ r w', s w = some (r, w') → Q r w'

variable {Q : Except ε α → W → Prop} {w : W}

theorem wp_of_apply {s : Sync W ε α} {r : Except ε α} {w' : W} (h : s w = some (r, w')) :
    s.wp Q w ↔ Q r w' := by
  constructor
  · exact fun hs => hs r w' h
  · intro hQ r₁ w₁ h₁
    rw [h] at h₁
    simp only [Option.some.injEq, Prod.mk.injEq] at h₁
    obtain ⟨rfl, rfl⟩ := h₁
    exact hQ

@[simp] theorem wp_pure (a : α) : (pure a : Sync W ε α).wp Q w ↔ Q (.ok a) w := wp_of_apply rfl

@[simp] theorem wp_throw (e : ε) : (throw e : Sync W ε α).wp Q w ↔ Q (.error e) w :=
  wp_of_apply rfl

@[simp] theorem wp_read (f : W → α) : (read f : Sync W ε α).wp Q w ↔ Q (.ok (f w)) w :=
  wp_of_apply rfl

@[simp] theorem wp_modify (f : W → W) {Q : Except ε Unit → W → Prop} :
    (modify f : Sync W ε Unit).wp Q w ↔ Q (.ok ()) (f w) := wp_of_apply rfl

@[simp] theorem wp_ofExcept (r : Except ε α) : (ofExcept r : Sync W ε α).wp Q w ↔ Q r w :=
  wp_of_apply rfl

@[simp] theorem wp_waitFor (p : W → Prop) [DecidablePred p] {Q : Except ε Unit → W → Prop} :
    (waitFor p : Sync W ε Unit).wp Q w ↔ (p w → Q (.ok ()) w) := by
  by_cases hp : p w
  · rw [wp_of_apply (show (waitFor p : Sync W ε Unit) w = some (.ok (), w) from if_pos hp)]
    simp [hp]
  · have hn : (waitFor p : Sync W ε Unit) w = none := if_neg hp
    simp [wp, hn, hp]

@[simp] theorem wp_bind (x : Sync W ε α) (f : α → Sync W ε β) {Q : Except ε β → W → Prop} :
    (x >>= f).wp Q w ↔ x.wp (post (fun a => (f a).wp Q) fun e => Q (.error e)) w := by
  unfold wp
  rw [bind_apply]
  rcases x w with _ | ⟨e | a, w'⟩ <;> simp

@[simp] theorem wp_tryCatch (x : Sync W ε α) (h : ε → Sync W ε α) :
    (tryCatch x h).wp Q w ↔ x.wp (post (fun a => Q (.ok a)) fun e => (h e).wp Q) w := by
  unfold wp
  rw [tryCatch_apply]
  rcases x w with _ | ⟨e | a, w'⟩ <;> simp

theorem wp_mono {Q' : Except ε α → W → Prop} {s : Sync W ε α} (h : s.wp Q w)
    (hQ : ∀ r w', Q r w' → Q' r w') : s.wp Q' w := fun r w' hs => hQ r w' (h r w' hs)

end Sync

namespace Async

def wp (p : Async W ε α) (Q : Except ε α → W → Prop) (w : W) : Prop := p.run.wp Q w

variable {Q : Except ε α → W → Prop} {w : W}

@[simp] theorem wp_pure (a : α) : (pure a : Async W ε α).wp Q w ↔ Q (.ok a) w := by simp [wp]

@[simp] theorem wp_throw (e : ε) : (throw e : Async W ε α).wp Q w ↔ Q (.error e) w := by simp [wp]

@[simp] theorem wp_await (s : Sync W ε α) : (await s).wp Q w ↔ s.wp Q w := by simp [wp]

@[simp] theorem wp_bind (x : Async W ε α) (f : α → Async W ε β) {Q : Except ε β → W → Prop} :
    (x >>= f).wp Q w ↔ x.wp (post (fun a => (f a).wp Q) fun e => Q (.error e)) w := by
  unfold wp
  rw [run_bind, Sync.wp_bind]

@[simp] theorem wp_tryCatch (x : Async W ε α) (h : ε → Async W ε α) :
    (tryCatch x h).wp Q w ↔ x.wp (post (fun a => Q (.ok a)) fun e => (h e).wp Q) w := by
  unfold wp
  rw [run_tryCatch, Sync.wp_tryCatch]

theorem wp_mono {Q' : Except ε α → W → Prop} {p : Async W ε α} (h : p.wp Q w)
    (hQ : ∀ r w', Q r w' → Q' r w') : p.wp Q' w := Sync.wp_mono h hQ

theorem wp_await_bind (s : Sync W ε α) (f : α → Async W ε β) {Q : Except ε β → W → Prop} :
    (await s >>= f).wp Q w ↔ s.wp (post (fun a => (f a).wp Q) fun e => Q (.error e)) w := by
  rw [wp_bind, wp_await]

end Async

/-- From `P`, the code stays within `G` and ends in `Q`. -/
def Within (G : W → W → Prop) (P : W → Prop) (s : Sync W ε α) (Q : Except ε α → W → Prop) : Prop :=
  ∀ w, P w → s.wp (fun r w' => G w w' ∧ Q r w') w

namespace Within

variable {G : W → W → Prop} {P : W → Prop} {Q : Except ε α → W → Prop}

theorem bind (htrans : ∀ w₁ w₂ w₃, G w₁ w₂ → G w₂ w₃ → G w₁ w₃) {x : Sync W ε β}
    {f : β → Sync W ε α} {K : β → W → Prop} {E : ε → W → Prop} (hx : Within G P x (post K E))
    (hf : ∀ b, Within G (K b) (f b) Q) (he : ∀ e w, E e w → Q (.error e) w) :
    Within G P (x >>= f) Q := by
  intro w hw
  rw [Sync.wp_bind]
  refine Sync.wp_mono (hx w hw) fun r w₁ h => ?_
  obtain ⟨hG, hr⟩ := h
  rcases r with e | b
  · exact ⟨hG, he e w₁ hr⟩
  · exact Sync.wp_mono (hf b w₁ hr) fun r w₂ h => ⟨htrans w w₁ w₂ hG h.1, h.2⟩

/-- Code that reads the world and answers. -/
theorem of_unchanged (hrefl : ∀ w, G w w) {s : Sync W ε α}
    (h : ∀ w, P w → s.wp (fun r w' => w' = w ∧ Q r w) w) : Within G P s Q := by
  intro w hw
  refine Sync.wp_mono (h w hw) ?_
  rintro r w' ⟨rfl, hQ⟩
  exact ⟨hrefl w', hQ⟩

theorem pure (hrefl : ∀ w, G w w) {a : α} (h : ∀ w, P w → Q (.ok a) w) :
    Within G P (Pure.pure a : Sync W ε α) Q :=
  of_unchanged hrefl fun w hw => by simpa using h w hw

theorem throw (hrefl : ∀ w, G w w) {e : ε} (h : ∀ w, P w → Q (.error e) w) :
    Within G P (MonadExcept.throw e : Sync W ε α) Q :=
  of_unchanged hrefl fun w hw => by simpa using h w hw

theorem read (hrefl : ∀ w, G w w) {f : W → α} (h : ∀ w, P w → Q (.ok (f w)) w) :
    Within G P (Sync.read f) Q :=
  of_unchanged hrefl fun w hw => by simpa using h w hw

theorem mono {P' : W → Prop} {Q' : Except ε α → W → Prop} {s : Sync W ε α} (h : Within G P s Q)
    (hP : ∀ w, P' w → P w) (hQ : ∀ r w, Q r w → Q' r w) : Within G P' s Q' :=
  fun w hw => Sync.wp_mono (h w (hP w hw)) fun r w' h => ⟨h.1, hQ r w' h.2⟩

end Within

/-- A segment that stays within the guarantee may be awaited. -/
theorem Safe.of_within {R G : W → W → Prop} {P : W → Prop} {s : Sync W ε β}
    {K : β → W → Prop} {E : ε → W → Prop} {f : β → Async W ε α} {Q : Except ε α → W → Prop} {w : W}
    (hP : Stable R P) (hK : ∀ b, Stable R (K b)) (hE : ∀ e, Stable R (E e))
    (hs : Within G P s (post K E)) (hw : P w) (hf : ∀ b w', K b w' → Safe R G Q (f b) w')
    (he : ∀ e w', E e w' → Q (.error e) w') : Safe R G Q (Async.await s >>= f) w := by
  refine Safe.await_bind P hP hw (post K E) ?_ (fun w r w' hw hr => hs w hw r w' hr) hf he
  rintro (e | b)
  · exact hE e
  · exact hK b

/-! ## Every state on the way -/

open Relation in
/-- The states the program comes to from `w` satisfy `P`, and what it ends with `Q`. -/
def Along (P : W → Prop) (Q : Except ε α → W → Prop) (p : Async W ε α) (w : W) : Prop :=
  Safe (fun _ _ => False) (fun _ w' => P w') Q p w

namespace Along

open Relation

variable {P : W → Prop} {Q : Except ε α → W → Prop} {w : W}

theorem eq_of_alone {w' : W} (h : ReflTransGen (fun _ _ => False) w w') : w' = w := by
  rcases ReflTransGen.cases_head h with rfl | ⟨_, hf, -⟩
  · rfl
  · exact hf.elim

theorem ret {r : Except ε α} (h : Q r w) : Along P Q (.ret r) w :=
  fun _ hr => (eq_of_alone hr).symm ▸ h

theorem pure {a : α} (h : Q (.ok a) w) : Along P Q (Pure.pure a : Async W ε α) w := ret h

theorem bind {x : Async W ε β} {f : β → Async W ε α} {Q' : Except ε β → W → Prop}
    (hx : Along P Q' x w) (hf : ∀ b w', Q' (.ok b) w' → Along P Q (f b) w')
    (he : ∀ e w', Q' (.error e) w' → Q (.error e) w') : Along P Q (x >>= f) w :=
  Safe.bind hx hf he

theorem tryCatch {x : Async W ε α} {h : ε → Async W ε α} {R : Except ε α → W → Prop}
    (hx : Along P R x w) (ho : ∀ a w', R (.ok a) w' → Q (.ok a) w')
    (hh : ∀ e w', R (.error e) w' → Along P Q (h e) w') :
    Along P Q (MonadExcept.tryCatch x h) w :=
  Safe.tryCatch hx ho hh

theorem await_bind {s : Sync W ε β} {f : β → Async W ε α}
    (h : s.wp (fun r w' => P w'
      ∧ post (fun b => Along P Q (f b)) (fun e => Q (.error e)) r w') w) :
    Along P Q (Async.await s >>= f) w := by
  intro w₁ hw₁ r w' hs
  rw [eq_of_alone hw₁] at hs ⊢
  obtain ⟨hP, hr⟩ := h r w' hs
  cases r with
  | ok b => exact ⟨hP, hr⟩
  | error e => exact ⟨hP, ret hr⟩

/-- What the program ends with. -/
theorem wp : ∀ {p : Async W ε α} {w : W}, Along P Q p w → p.wp Q w
  | .ret r, w, h => by
    rintro r' w' hr
    obtain ⟨rfl, rfl⟩ := Prod.mk.inj (Option.some.inj hr)
    exact h w .refl
  | .step act k, w, h => by
    intro r w' hr
    rw [Async.run_step_apply] at hr
    rcases hact : act w with _ | ⟨b, w₁⟩ <;> rw [hact] at hr
    · simp at hr
    · exact wp (h w .refl b w₁ hact).2 r w' hr

/-- The states it comes to, where it is the only thread. -/
theorem reach {p : Async W ε α} (h : Along P Q p w) (hw : P w) {c : Config Unit W ε α}
    (hr : Config.Reach ⟨w, fun _ => p⟩ c) : P c.world :=
  Safe.invariant (R := fun _ _ _ => False) (G := fun _ _ w' => P w') (Q := fun _ => Q)
    (c := ⟨w, fun _ => p⟩) (fun i j hne => absurd (Subsingleton.elim i j) hne) (fun _ => h) hr
    (fun _ _ _ _ hP => hP) hw

end Along

end Interleave
