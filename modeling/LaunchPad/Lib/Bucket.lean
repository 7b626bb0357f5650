import Mathlib.Algebra.Order.Field.Basic
import Mathlib.Algebra.Order.Group.MinMax
import Mathlib.Data.List.Basic
import Mathlib.Tactic.Linarith

/-!
# Token buckets

A bucket holds up to `cap` tokens and gains `rate` of them per unit of time. A draw takes its cost
or, where the bucket holds less, nothing; either way it notes the time it was made at. What a
sequence of draws can take is the bucket's content and what flows in between consecutive draws. A
clock that never goes back adds these inflows up to at most the whole time passed; in any other
order, draining the bucket each time takes all of them.

`answers` and `endState` feed a list of inputs to a state; where every input touches one cell, the
answers on a cell are those its own inputs get alone.
-/

namespace Feed

variable {S E R κ C : Type}

/-- The inputs with their answers, fed one after the other. -/
def answers (step : E → S → R × S) : S → List E → List (E × R)
  | _, [] => []
  | s, e :: es => (e, (step e s).1) :: answers step (step e s).2 es

/-- The state a list of inputs leaves. -/
def endState (step : E → S → R × S) : S → List E → S
  | s, [] => s
  | s, e :: es => endState step (step e s).2 es

variable {step : E → S → R × S}

theorem answers_append (s : S) (es fs : List E) :
    answers step s (es ++ fs) = answers step s es ++ answers step (endState step s es) fs := by
  induction es generalizing s with
  | nil => rfl
  | cons e es ih => simp [answers, endState, ih]

theorem endState_append (s : S) (es fs : List E) :
    endState step s (es ++ fs) = endState step (endState step s es) fs := by
  induction es generalizing s with
  | nil => rfl
  | cons e es ih => exact ih _

theorem map_fst_answers (s : S) (es : List E) : (answers step s es).map Prod.fst = es := by
  induction es generalizing s with
  | nil => rfl
  | cons e es ih => simp [answers, ih]

theorem length_answers (s : S) (es : List E) : (answers step s es).length = es.length := by
  rw [← List.length_map Prod.fst, map_fst_answers]

/-- A stretch of the answers is what its inputs get, from the state the inputs before it left. -/
theorem answers_stretch {s : S} {es : List E} {before mid after : List (E × R)}
    (h : answers step s es = before ++ mid ++ after) :
    mid = answers step (endState step s (before.map Prod.fst)) (mid.map Prod.fst) := by
  have hes := congrArg (List.map Prod.fst) h
  simp only [map_fst_answers, List.map_append] at hes
  rw [hes, answers_append, answers_append] at h
  have hfront := (List.append_inj h (by simp [length_answers])).1
  exact (List.append_inj hfront (by simp [length_answers])).2.symm

/-- Two states whose relation each input keeps, at its time, and that answer it alike, answer a list
of inputs in order alike. -/
theorem answers_alike {S' O T : Type} [Preorder T] {step' : E → S' → R × S'} (time : E → T)
    (obs : R → O) (Rel : T → S → S' → Prop)
    (hstep : ∀ e t s s', Rel t s s' → t ≤ time e →
      obs (step e s).1 = obs (step' e s').1 ∧ Rel (time e) (step e s).2 (step' e s').2) :
    ∀ (es : List E) {t : T} {s : S} {s' : S'}, Rel t s s' → (∀ e ∈ es, t ≤ time e) →
      es.Pairwise (fun e f => time e ≤ time f) →
      (answers step s es).map (fun p => obs p.2) = (answers step' s' es).map fun p => obs p.2
  | [], _, _, _, _, _, _ => rfl
  | e :: es, t, s, s', hrel, ht, hsort => by
    obtain ⟨hle, hsort⟩ := List.pairwise_cons.1 hsort
    obtain ⟨hobs, hnext⟩ := hstep e t s s' hrel (ht e List.mem_cons_self)
    have ih := answers_alike time obs Rel hstep es hnext hle hsort
    simp [answers, hobs, ih]

/-- An input reads and writes the cell of its own key only. -/
structure Cellwise (step : E → S → R × S) (cell : S → κ → C) (key : E → κ) : Prop where
  other : ∀ e s k, key e ≠ k → cell (step e s).2 k = cell s k
  answer : ∀ e s s', cell s (key e) = cell s' (key e) → (step e s).1 = (step e s').1
  own : ∀ e s s', cell s (key e) = cell s' (key e) →
    cell (step e s).2 (key e) = cell (step e s').2 (key e)

variable {cell : S → κ → C} {key : E → κ} [DecidableEq κ]

/-- Inputs on other cells have no influence: not on what a cell's inputs are answered, not on what
they leave there. -/
theorem Cellwise.filter (hstep : Cellwise step cell key) (k : κ) :
    ∀ (es : List E) {s s' : S}, cell s k = cell s' k →
      (answers step s es).filter (fun p => key p.1 = k)
          = answers step s' (es.filter fun e => key e = k)
        ∧ cell (endState step s es) k = cell (endState step s' (es.filter fun e => key e = k)) k
  | [], _, _, hs => ⟨rfl, hs⟩
  | e :: es, s, s', hs => by
    by_cases hk : key e = k
    · subst hk
      obtain ⟨ha, hc⟩ := hstep.filter (key e) es (hstep.own e s s' hs)
      simp [answers, endState, ha, hc, hstep.answer e s s' hs]
    · obtain ⟨ha, hc⟩ := hstep.filter k es ((hstep.other e s k hk).trans hs)
      simp [answers, endState, ha, hc, hk]

end Feed

namespace Bucket

variable {K : Type} [Field K] [LinearOrder K]

/-- What the last draw left, and when. -/
structure Level (K : Type) where
  tokens : K
  since : K

section Defs

variable (cap rate : K)

/-- The tokens there are at a time; a bucket nobody has drawn from is full. -/
def refilled : Option (Level K) → K → K
  | none, _ => cap
  | some l, now => min cap (l.tokens + max 0 (now - l.since) * rate)

/-- What a draw takes. -/
def taken (l : Option (Level K)) (now cost : K) : K :=
  if cost ≤ refilled cap rate l now then cost else 0

/-- What a draw leaves. -/
def draw (l : Option (Level K)) (now cost : K) : Level K :=
  ⟨refilled cap rate l now - taken cap rate l now cost, now⟩

/-- What a sequence of draws takes, each a time and a cost. -/
def total : Option (Level K) → List (K × K) → K
  | _, [] => 0
  | l, (now, cost) :: ds => taken cap rate l now cost + total (some (draw cap rate l now cost)) ds

/-- What flows in from one draw to the next: nothing where the clock goes back, and never more than
a full bucket. -/
def inflow (t t' : K) : K := min cap (max 0 (t' - t) * rate)

/-- What flows in over a sequence of times. -/
def inflows : K → List K → K
  | _, [] => 0
  | t, t' :: ts => inflow cap rate t t' + inflows t' ts

/-- The costs that take all there is, each time. -/
def drain : Option (Level K) → List K → List (K × K)
  | _, [] => []
  | l, now :: ts =>
    (now, refilled cap rate l now)
      :: drain (some (draw cap rate l now (refilled cap rate l now))) ts

end Defs

variable {cap rate : K}

/-- Neither overdrawn nor overfull. -/
def Within (cap : K) (l : Option (Level K)) : Prop := ∀ l' ∈ l, 0 ≤ l'.tokens ∧ l'.tokens ≤ cap

theorem within_none : Within cap (none : Option (Level K)) := nofun

theorem refilled_le (l : Option (Level K)) (now : K) : refilled cap rate l now ≤ cap := by
  rcases l with _ | l
  · exact le_rfl
  · exact min_le_left _ _

theorem drain_fst (l : Option (Level K)) (ts : List K) :
    (drain cap rate l ts).map Prod.fst = ts := by
  induction ts generalizing l with
  | nil => rfl
  | cons t ts ih => simp [drain, ih]

/-- Drained each time from empty, the bucket gives all that flows in. -/
theorem total_drain_empty (t : K) (ts : List K) :
    total cap rate (some ⟨0, t⟩) (drain cap rate (some ⟨0, t⟩) ts) = inflows cap rate t ts := by
  induction ts generalizing t with
  | nil => rfl
  | cons t' ts ih =>
    have hleft : draw cap rate (some ⟨0, t⟩) t' (refilled cap rate (some ⟨0, t⟩) t') = ⟨0, t'⟩ := by
      simp [draw, taken]
    simp only [drain, total, inflows, hleft, ih]
    simp [taken, refilled, inflow]

theorem total_drain (t : K) (ts : List K) :
    total cap rate none (drain cap rate none (t :: ts)) = cap + inflows cap rate t ts := by
  have hleft : draw cap rate none t (refilled cap rate none t) = ⟨0, t⟩ := by simp [draw, taken]
  simp only [drain, total, hleft, total_drain_empty]
  simp [taken, refilled]

variable [IsStrictOrderedRing K]

theorem refilled_nonneg (hcap : 0 ≤ cap) (hrate : 0 ≤ rate) {l : Option (Level K)}
    (hl : ∀ l' ∈ l, 0 ≤ l'.tokens) (now : K) : 0 ≤ refilled cap rate l now := by
  rcases l with _ | l
  · exact hcap
  · exact le_min hcap (add_nonneg (hl l rfl) (mul_nonneg (le_max_left _ _) hrate))

/-- In some time no more flows in than the rate lets. -/
theorem refilled_le_add (hrate : 0 ≤ rate) (l : Option (Level K)) {now now' : K} (h : now ≤ now') :
    refilled cap rate l now' ≤ refilled cap rate l now + (now' - now) * rate := by
  have hin : 0 ≤ (now' - now) * rate := mul_nonneg (sub_nonneg.2 h) hrate
  rcases l with _ | l
  · exact le_add_of_nonneg_right hin
  · have hgo : max 0 (now' - l.since) ≤ max 0 (now - l.since) + (now' - now) :=
      max_le (add_nonneg (le_max_left _ _) (sub_nonneg.2 h)) (by
        have := le_max_right 0 (now - l.since)
        linarith)
    have hflow := mul_le_mul_of_nonneg_right hgo hrate
    rw [add_mul] at hflow
    unfold refilled
    rw [← min_add_add_right]
    exact min_le_min (le_add_of_nonneg_right hin) (by linarith)

/-- A bucket left long enough is full, whatever was left in it. -/
theorem refilled_eq_cap (hrate : 0 ≤ rate) {l : Level K} {now : K} (hl : 0 ≤ l.tokens)
    (hlong : cap ≤ (now - l.since) * rate) : refilled cap rate (some l) now = cap := by
  have hge : (now - l.since) * rate ≤ max 0 (now - l.since) * rate :=
    mul_le_mul_of_nonneg_right (le_max_right _ _) hrate
  exact min_eq_left (by linarith)

/-- A draw that was refused succeeds once what it lacked has flowed in. -/
theorem le_refilled_draw_iff {l : Option (Level K)} {now t cost : K}
    (hrefused : refilled cap rate l now < cost) (hcost : cost ≤ cap) (ht : now ≤ t) :
    cost ≤ refilled cap rate (some (draw cap rate l now cost)) t
      ↔ cost - refilled cap rate l now ≤ (t - now) * rate := by
  have hleft : draw cap rate l now cost = ⟨refilled cap rate l now, now⟩ := by
    simp [draw, taken, not_le.2 hrefused]
  have hgo : max 0 (t - now) = t - now := max_eq_right (sub_nonneg.2 ht)
  rw [hleft]
  unfold refilled
  rw [le_min_iff, hgo]
  constructor
  · rintro ⟨-, h⟩
    linarith
  · exact fun h => ⟨hcost, by linarith⟩

/-- A draw leaves the bucket full again once what is missing has flowed in. -/
theorem cap_le_refilled_draw_iff (hrate : 0 < rate) {l : Option (Level K)} {now t cost : K}
    (ht : now ≤ t) :
    cap ≤ refilled cap rate (some (draw cap rate l now cost)) t
      ↔ (cap - (draw cap rate l now cost).tokens) / rate ≤ t - now := by
  have hgo : max 0 (t - now) = t - now := max_eq_right (sub_nonneg.2 ht)
  have hsince : (draw cap rate l now cost).since = now := rfl
  rw [div_le_iff₀ hrate, sub_le_iff_le_add']
  simp only [refilled, le_min_iff, le_refl, true_and, hsince, hgo]

omit [IsStrictOrderedRing K] in
/-- What a draw leaves depends on what it finds only. -/
theorem draw_congr {l l' : Option (Level K)} {now : K}
    (h : refilled cap rate l now = refilled cap rate l' now) (cost : K) :
    draw cap rate l now cost = draw cap rate l' now cost := by
  simp only [draw, taken, h]

/-- What a draw takes is gone. -/
theorem refilled_draw_add_taken_le (l : Option (Level K)) (now cost : K) :
    refilled cap rate (some (draw cap rate l now cost)) now + taken cap rate l now cost
      ≤ refilled cap rate l now := by
  have hleft : refilled cap rate (some (draw cap rate l now cost)) now
      ≤ refilled cap rate l now - taken cap rate l now cost := by
    refine (min_le_right _ _).trans_eq ?_
    simp [draw]
  linarith

theorem draw_nonneg (hcap : 0 ≤ cap) (hrate : 0 ≤ rate) {l : Option (Level K)}
    (hl : ∀ l' ∈ l, 0 ≤ l'.tokens) (now cost : K) : 0 ≤ (draw cap rate l now cost).tokens := by
  have h := refilled_nonneg hcap hrate hl now
  unfold draw taken
  split
  · simpa
  · simpa

/-- A draw keeps the bucket between empty and full. -/
theorem within_draw (hcap : 0 ≤ cap) (hrate : 0 ≤ rate) {l : Option (Level K)} (hl : Within cap l)
    (now : K) {cost : K} (hcost : 0 ≤ cost) : Within cap (some (draw cap rate l now cost)) := by
  intro l' hl'
  obtain rfl := Option.some.inj hl'
  refine ⟨draw_nonneg hcap hrate (fun l' h => (hl l' h).1) now cost, ?_⟩
  have h : refilled cap rate l now ≤ cap := refilled_le l now
  unfold draw taken
  split
  · exact (sub_le_self _ hcost).trans h
  · simpa using h

/-- A refill adds at most the inflow. -/
theorem refilled_le_add_inflow {l : Level K} (hl : 0 ≤ l.tokens) (now : K) :
    refilled cap rate (some l) now ≤ l.tokens + inflow cap rate l.since now := by
  unfold refilled inflow
  rw [← min_add_add_left]
  exact min_le_min_right _ (le_add_of_nonneg_left hl)

/-- Whatever the costs, the draws take no more than what was there and what flowed in. -/
theorem total_le (hcap : 0 ≤ cap) (hrate : 0 ≤ rate) :
    ∀ (ds : List (K × K)) {l : Level K}, 0 ≤ l.tokens →
      total cap rate (some l) ds ≤ l.tokens + inflows cap rate l.since (ds.map Prod.fst)
  | [], l, hl => by simpa [total, inflows] using hl
  | (now, cost) :: ds, l, hl => by
    have hd := draw_nonneg hcap hrate (l := some l) (by simpa using hl) now cost
    have hrest := total_le hcap hrate ds hd
    have hfill : refilled cap rate (some l) now ≤ l.tokens + inflow cap rate l.since now :=
      refilled_le_add_inflow hl now
    simp only [total, inflows, List.map_cons]
    simp only [draw] at hrest ⊢
    linarith

/-- A first draw finds at most a full bucket. -/
theorem total_cons_le (hcap : 0 ≤ cap) (hrate : 0 ≤ rate) {l : Option (Level K)}
    (hl : ∀ l' ∈ l, 0 ≤ l'.tokens) (now cost : K) (ds : List (K × K)) :
    total cap rate l ((now, cost) :: ds) ≤ cap + inflows cap rate now (ds.map Prod.fst) := by
  have hrest := total_le hcap hrate ds (draw_nonneg hcap hrate hl now cost)
  have hfull : refilled cap rate l now ≤ cap := refilled_le l now
  simp only [total]
  simp only [draw] at hrest ⊢
  linarith

theorem drain_nonneg (hcap : 0 ≤ cap) (hrate : 0 ≤ rate) :
    ∀ (ts : List K) {l : Option (Level K)}, (∀ l' ∈ l, 0 ≤ l'.tokens) →
      ∀ d ∈ drain cap rate l ts, 0 ≤ d.2
  | [], _, _, _, hd => by simp [drain] at hd
  | t :: ts, l, hl, d, hd => by
    rcases List.mem_cons.1 hd with rfl | hd
    · exact refilled_nonneg hcap hrate hl t
    · refine drain_nonneg hcap hrate ts (fun l' hl' => ?_) d hd
      obtain rfl := Option.some.inj hl'
      exact draw_nonneg hcap hrate hl t _

/-- A clock that never goes back lets in at most `rate` per unit of the time passed. -/
theorem inflows_le (hrate : 0 ≤ rate) :
    ∀ (ts : List K) {t : K}, (t :: ts).Pairwise (· ≤ ·) → ∀ t' ∈ (t :: ts).getLast?,
      inflows cap rate t ts ≤ (t' - t) * rate
  | [], t, _, t', hlast => by
    obtain rfl : t = t' := by simpa using hlast
    simp [inflows]
  | t₁ :: ts, t, hsort, t', hlast => by
    obtain ⟨hle, hsort⟩ := List.pairwise_cons.1 hsort
    have hrest := inflows_le hrate ts hsort t' (by simpa using hlast)
    have hstep : inflow cap rate t t₁ ≤ (t₁ - t) * rate := by
      refine (min_le_right _ _).trans_eq ?_
      rw [max_eq_right (sub_nonneg.2 (hle t₁ (by simp)))]
    simp only [inflows]
    linarith [sub_mul t' t₁ rate, sub_mul t₁ t rate, sub_mul t' t rate]

end Bucket
