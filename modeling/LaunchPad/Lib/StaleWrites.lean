import Mathlib.Algebra.Order.Group.Basic
import Mathlib.Data.List.Infix
import Mathlib.Logic.Function.Basic
import Mathlib.Tactic.Abel

/-!
# Writes computed from an old value

Threads take amounts out of a cell in two steps: a thread reads the cell, and later writes what is
left of the value it has read, whatever the cell holds by then. What is taken and what is left never
add up to less than what was there (`Cell.le_taken_add`). They add up to it as long as no thread has
written after another wrote in between (`Cell.taken_add_eq_iff`), and never again from then on.
-/

namespace StaleWrites

variable {τ G : Type}

/-- A step of the thread `t`. A write takes `q` out. -/
inductive Access (τ G : Type)
  | read (t : τ)
  | write (t : τ) (q : G)

/-- What an access takes out. -/
def Access.amount [Zero G] : Access τ G → G
  | read _ => 0
  | write _ q => q

def taken [AddMonoid G] (log : List (Access τ G)) : G := (log.map Access.amount).sum

/-- The cell has been written since `t` last read it. -/
inductive Behind (t : τ) : List (Access τ G) → Prop
  | write {log : List (Access τ G)} (h : .read t ∈ log) (t' : τ) (q : G) :
    Behind t (log ++ [.write t' q])
  | later {log : List (Access τ G)} {a : Access τ G} (h : Behind t log) (ha : a ≠ .read t) :
    Behind t (log ++ [a])

/-- A thread has written that was behind. -/
def Overwritten (log : List (Access τ G)) : Prop :=
  ∃ before t q, before ++ [.write t q] <+: log ∧ Behind t before

/-- A cell that held `v₀`, after these accesses. The threads of `seen` have read a value and not
written since. -/
inductive Cell [AddCommGroup G] [DecidableEq τ] (v₀ : G) :
    List (Access τ G) → (τ → Option G) → G → Prop
  | start : Cell v₀ [] (fun _ => none) v₀
  | read {log : List (Access τ G)} {seen : τ → Option G} {v : G} (h : Cell v₀ log seen v) (t : τ) :
    Cell v₀ (log ++ [.read t]) (Function.update seen t (some v)) v
  | write {log : List (Access τ G)} {seen : τ → Option G} {v a : G} (h : Cell v₀ log seen v)
      (t : τ) (q : G) (ht : seen t = some a) :
    Cell v₀ (log ++ [.write t q]) (Function.update seen t none) (a - q)

section Logs

variable {t t' : τ} {q : G} {log : List (Access τ G)} {a : Access τ G}

theorem behind_snoc : Behind t (log ++ [a]) ↔
    a ≠ .read t ∧ (Behind t log ∨ .read t ∈ log ∧ ∃ t' q, a = .write t' q) := by
  constructor
  · intro h
    generalize hl : log ++ [a] = log' at h
    cases h with
    | write h t' q =>
      obtain ⟨rfl, ha⟩ := List.append_inj' hl rfl
      obtain rfl := List.singleton_inj.1 ha
      exact ⟨by simp, .inr ⟨h, t', q, rfl⟩⟩
    | later h hne =>
      obtain ⟨rfl, ha⟩ := List.append_inj' hl rfl
      obtain rfl := List.singleton_inj.1 ha
      exact ⟨hne, .inl h⟩
  · rintro ⟨hne, h | ⟨h, t', q, rfl⟩⟩
    · exact .later h hne
    · exact .write h t' q

@[simp] theorem not_behind_read : ¬ Behind t (log ++ [.read t]) := by
  simp [behind_snoc]

theorem behind_read_of_ne (h : t' ≠ t) : Behind t (log ++ [.read t']) ↔ Behind t log := by
  simp [behind_snoc, h]

theorem behind_write (h : .read t ∈ log) : Behind t (log ++ [.write t' q]) :=
  .write h t' q

theorem overwritten_snoc :
    Overwritten (log ++ [a]) ↔ Overwritten log ∨ ∃ t q, a = .write t q ∧ Behind t log := by
  constructor
  · rintro ⟨before, t, q, hp, h⟩
    rcases List.prefix_concat_iff.1 hp with he | hp
    · obtain ⟨rfl, ha⟩ := List.append_inj' he rfl
      exact .inr ⟨t, q, (List.singleton_inj.1 ha).symm, h⟩
    · exact .inl ⟨before, t, q, hp, h⟩
  · rintro (⟨before, t, q, hp, h⟩ | ⟨t, q, rfl, h⟩)
    · exact ⟨before, t, q, hp.trans (List.prefix_append _ _), h⟩
    · exact ⟨log, t, q, List.prefix_rfl, h⟩

@[simp] theorem overwritten_read : Overwritten (log ++ [.read t]) ↔ Overwritten log := by
  simp [overwritten_snoc]

theorem overwritten_write : Overwritten (log ++ [.write t q]) ↔ Overwritten log ∨ Behind t log := by
  simp [overwritten_snoc]

@[simp] theorem not_overwritten_nil : ¬ Overwritten ([] : List (Access τ G)) := by
  rintro ⟨before, t, q, hp, -⟩
  simpa using hp.length_le

@[simp] theorem taken_snoc [AddMonoid G] : taken (log ++ [a]) = taken log + a.amount := by
  simp [taken]

end Logs

namespace Cell

variable [AddCommGroup G] {v₀ v : G} {log : List (Access τ G)} {seen : τ → Option G}

/-- What there would be too much of if the cell held `v`. -/
def excess (v₀ : G) (log : List (Access τ G)) (v : G) : G := v + taken log - v₀

theorem excess_read {t : τ} : excess v₀ (log ++ [.read t]) v = excess v₀ log v := by
  simp [excess, Access.amount]

theorem excess_write {t : τ} {q : G} :
    excess v₀ (log ++ [.write t q]) v = excess v₀ log v + q := by
  simp only [excess, taken_snoc, Access.amount]
  abel

variable [LinearOrder G]

/-- Every write takes something out. -/
def Takes (log : List (Access τ G)) : Prop := ∀ t q, .write t q ∈ log → 0 < q

/-- The excess if a reader restored what it has read is the one after its write. It is none just if
the reader is not behind, and nobody has been overtaken yet. -/
structure Even (v₀ : G) (log : List (Access τ G)) (seen : τ → Option G) (v : G) : Prop where
  nonneg : 0 ≤ excess v₀ log v
  even : excess v₀ log v = 0 ↔ ¬ Overwritten log
  read : ∀ t a, seen t = some a → .read t ∈ log
  seen_nonneg : ∀ t a, seen t = some a → 0 ≤ excess v₀ log a
  seen_even : ∀ t a, seen t = some a → (excess v₀ log a = 0 ↔ ¬ Overwritten log ∧ ¬ Behind t log)

variable [DecidableEq τ]

theorem Even.read_step (h : Even v₀ log seen v) (t : τ) :
    Even v₀ (log ++ [.read t]) (Function.update seen t (some v)) v where
  nonneg := by simpa only [excess_read] using h.nonneg
  even := by simpa only [excess_read, overwritten_read] using h.even
  read t' a ht' := by
    rcases eq_or_ne t' t with rfl | hne
    · simp
    · rw [Function.update_of_ne hne] at ht'
      exact List.mem_append_left _ (h.read t' a ht')
  seen_nonneg t' a ht' := by
    rw [excess_read]
    rcases eq_or_ne t' t with rfl | hne
    · rw [Function.update_self] at ht'
      obtain rfl := Option.some.inj ht'
      exact h.nonneg
    · rw [Function.update_of_ne hne] at ht'
      exact h.seen_nonneg t' a ht'
  seen_even t' a ht' := by
    rw [excess_read, overwritten_read]
    rcases eq_or_ne t' t with rfl | hne
    · rw [Function.update_self] at ht'
      obtain rfl := Option.some.inj ht'
      simpa using h.even
    · rw [Function.update_of_ne hne] at ht'
      rw [behind_read_of_ne hne.symm]
      exact h.seen_even t' a ht'

variable [IsOrderedAddMonoid G]

/-- The one who writes leaves the excess of what it has read. To all other readers that is new. -/
theorem Even.write_step (h : Even v₀ log seen v) {t : τ} {a q : G} (ht : seen t = some a)
    (hq : 0 < q) :
    Even v₀ (log ++ [.write t q]) (Function.update seen t none) (a - q) := by
  have hleft : excess v₀ (log ++ [.write t q]) (a - q) = excess v₀ log a := by
    simp only [excess, taken_snoc, Access.amount]
    abel
  have hother : ∀ t' b, Function.update seen t none t' = some b →
      seen t' = some b ∧ 0 < excess v₀ (log ++ [.write t q]) b := by
    intro t' b ht'
    rcases eq_or_ne t' t with rfl | hne
    · simp at ht'
    · rw [Function.update_of_ne hne] at ht'
      exact ⟨ht', excess_write (v := b) ▸ add_pos_of_nonneg_of_pos (h.seen_nonneg t' b ht') hq⟩
  refine ⟨?_, ?_, fun t' b ht' => ?_, fun t' b ht' => (hother t' b ht').2.le, fun t' b ht' => ?_⟩
  · rw [hleft]
    exact h.seen_nonneg t a ht
  · rw [hleft, h.seen_even t a ht, overwritten_write, not_or]
  · exact List.mem_append_left _ (h.read t' b (hother t' b ht').1)
  · obtain ⟨hseen, hpos⟩ := hother t' b ht'
    exact ⟨fun h0 => absurd h0 hpos.ne', fun hb => absurd (behind_write (h.read t' b hseen)) hb.2⟩

theorem even (h : Cell v₀ log seen v) (hlog : Takes log) : Even v₀ log seen v := by
  induction h with
  | start =>
    exact ⟨by simp [excess, taken], by simp [excess, taken], nofun, nofun, nofun⟩
  | read _ t ih => exact (ih fun t q hm => hlog t q (List.mem_append_left _ hm)).read_step t
  | write _ t q ht ih =>
    exact (ih fun t q hm => hlog t q (List.mem_append_left _ hm)).write_step ht
      (hlog t q (by simp))

theorem le_taken_add (h : Cell v₀ log seen v) (hlog : Takes log) : v₀ ≤ v + taken log :=
  sub_nonneg.1 (h.even hlog).nonneg

theorem taken_add_eq_iff (h : Cell v₀ log seen v) (hlog : Takes log) :
    v + taken log = v₀ ↔ ¬ Overwritten log :=
  sub_eq_zero.symm.trans (h.even hlog).even

end Cell

end StaleWrites
