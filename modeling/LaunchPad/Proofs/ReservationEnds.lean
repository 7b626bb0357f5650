import LaunchPad.Proofs.Effects
import LaunchPad.Proofs.Repertoire

/-!
# How reservations end

Calls of the workflow and of the reservations' own methods, interleaved in any way and at any
clock readings. A stored reservation changes by its methods only, so what a method can do to it,
and from which status and at which reading, is all that can happen to it.
-/

namespace LaunchPad

open Interleave Rows Relation

/-- What code with this repertoire does to a reservation. -/
structure Reservation.Goes (may : Repertoire) (r r' : Reservation) : Prop where
  moves : r.Moves r'
  confirmed : r'.status = .confirmed →
    r.status = .confirmed ∨ ∃ now, may.confirmsAt = some now ∧ now ≤ r.expiresAt
  expired : r'.status = .expired →
    r.status = .expired ∨ ∃ now, may.expiresAt = some now ∧ r.expiresAt < now

theorem Reservation.Moves.expiresAt {r r' : Reservation} (h : r.Moves r') :
    r'.expiresAt = r.expiresAt := by
  rcases h with rfl | ⟨-, s, rfl⟩ <;> rfl

section Reservations

variable {may : Repertoire}

theorem Reservation.Goes.refl (r : Reservation) : r.Goes may r := ⟨.inl rfl, .inl, .inl⟩

theorem Reservation.Goes.trans {r₁ r₂ r₃ : Reservation} (h : r₁.Goes may r₂) (h' : r₂.Goes may r₃) :
    r₁.Goes may r₃ where
  moves := h.moves.trans h'.moves
  confirmed hs := by
    rcases h'.confirmed hs with hs' | hat
    · exact h.confirmed hs'
    · rw [h.moves.expiresAt] at hat
      exact .inr hat
  expired hs := by
    rcases h'.expired hs with hs' | hat
    · exact h.expired hs'
    · rw [h.moves.expiresAt] at hat
      exact .inr hat

/-- One case for each method: the statuses it starts from and the reading it checks. -/
theorem ReservationMethod.goes {m : ReservationMethod} (hm : may.reservation m)
    {r r' : Reservation} (h : m.apply r = .ok r') : r.Goes may r' := by
  cases m with
  | startPayment now later =>
    simp only [apply, Reservation.startPayment, Reservation.unlessExpired] at h
    split_ifs at h with hs he
    simp only [Except.ok.injEq] at h
    subst h
    exact ⟨.inr ⟨.inl (not_not.1 hs), _, rfl⟩, by simp, by simp⟩
  | revertPaymentDecline =>
    obtain ⟨hs, rfl⟩ := Reservation.revertPaymentDecline_ok h
    exact ⟨.inr ⟨.inr hs, _, rfl⟩, by simp, by simp⟩
  | confirm now later =>
    obtain ⟨hopen, hat, rfl⟩ := Reservation.confirm_ok h
    exact ⟨.inr ⟨hopen, _, rfl⟩, fun _ => .inr ⟨now, hm, hat⟩, by simp⟩
  | expire now later =>
    obtain ⟨hopen, hat, rfl⟩ := Reservation.expire_ok h
    exact ⟨.inr ⟨hopen, _, rfl⟩, by simp, fun _ => .inr ⟨now, hm, hat⟩⟩
  | cancel =>
    simp only [apply, Reservation.cancel] at h
    split_ifs at h with hopen
    simp only [Except.ok.injEq] at h
    subst h
    exact ⟨.inr ⟨hopen, _, rfl⟩, by simp, by simp⟩

/-- What it does to the stored ones: none comes and none goes. -/
def ReservationsGo (may : Repertoire) (w w' : World) : Prop :=
  ∀ rid, match w.reservations.get rid, w'.reservations.get rid with
    | none, none => True
    | some r, some r' => r.Goes may r'
    | _, _ => False

theorem ReservationsGo.get {w w' : World} (h : ReservationsGo may w w') {rid : String}
    {r : Reservation} (hr : w.reservations.get rid = some r) :
    ∃ r', w'.reservations.get rid = some r' ∧ r.Goes may r' := by
  have hrid := h rid
  rw [hr] at hrid
  rcases hr' : w'.reservations.get rid with _ | r' <;> rw [hr'] at hrid
  · exact hrid.elim
  · exact ⟨r', rfl, hrid⟩

theorem ReservationsGo.get_back {w w' : World} (h : ReservationsGo may w w') {rid : String}
    {r' : Reservation} (hr' : w'.reservations.get rid = some r') :
    ∃ r, w.reservations.get rid = some r ∧ r.Goes may r' := by
  have hrid := h rid
  rw [hr'] at hrid
  rcases hr : w.reservations.get rid with _ | r <;> rw [hr] at hrid
  · exact hrid.elim
  · exact ⟨r, rfl, hrid⟩

theorem reservationsGo_of_eq {w w' : World} (h : w'.reservations = w.reservations) :
    ReservationsGo may w w' := by
  intro rid
  rw [h]
  cases w.reservations.get rid with
  | none => trivial
  | some r => exact .refl r

theorem reservationsGo_trans {w₁ w₂ w₃ : World} (h : ReservationsGo may w₁ w₂)
    (h' : ReservationsGo may w₂ w₃) : ReservationsGo may w₁ w₃ := by
  intro rid
  rcases hr : w₁.reservations.get rid with _ | r
  · rcases hr' : w₃.reservations.get rid with _ | r'
    · trivial
    · obtain ⟨r₂, hr₂, -⟩ := h'.get_back hr'
      obtain ⟨r₁, hr₁, -⟩ := h.get_back hr₂
      rw [hr] at hr₁
      cases hr₁
  · obtain ⟨r₂, hr₂, hg⟩ := h.get hr
    obtain ⟨r₃, hr₃, hg'⟩ := h'.get hr₂
    rw [hr₃]
    exact hg.trans hg'

theorem reservationsGo_save {w : World} {r r' : Reservation}
    (hr : w.reservations.get r.id = some r) (hg : r.Goes may r') :
    ReservationsGo may w (w.saveReservation r') := by
  intro rid
  have hget : (w.saveReservation r').reservations.get rid
      = if rid = r.id then some r' else w.reservations.get rid := by
    rw [← hg.moves.id]
    exact Repository.get_save _ r' rid
  rw [hget]
  split_ifs with hid
  · rw [hid, hr]
    exact hg
  · cases w.reservations.get rid with
    | none => trivial
    | some r₁ => exact .refl r₁

theorem Repertoire.Op.reservationsGo {w w' : World} (h : may.Op w w') :
    ReservationsGo may w w' := by
  cases h with
  | order hm ho h => exact reservationsGo_of_eq rfl
  | saveOrder ho => exact reservationsGo_of_eq rfl
  | newOrder hfresh => exact reservationsGo_of_eq rfl
  | reservation hm hr h => exact reservationsGo_save hr (ReservationMethod.goes hm h)
  | saveReservation hr => exact reservationsGo_save hr (.refl _)
  | record he => exact reservationsGo_of_eq rfl
  | addEvent => exact reservationsGo_of_eq rfl

theorem reservationsGo_of_ops {w w' : World} (h : ReflTransGen may.Op w w') :
    ReservationsGo may w w' := by
  induction h with
  | refl => exact reservationsGo_of_eq rfl
  | tail _ hop ih => exact reservationsGo_trans ih hop.reservationsGo

end Reservations

section Runs

variable {τ : Type} [DecidableEq τ]

/-- The actions, none of which has started. -/
def begun (actions : τ → Action) (w : World) : Config τ World WorkflowError (Option Reply) :=
  ⟨w, fun i => (actions i).program⟩

/-- Every step is within the repertoire of the action that takes it. -/
theorem reservationsGo_step {actions : τ → Action} {w₀ : World}
    {c c' : Config τ World WorkflowError (Option Reply)} (hc : (begun actions w₀).Reach c) {i : τ}
    (hs : c.step i = some c') : ReservationsGo (actions i).repertoire c.world c'.world := by
  have heach := Config.each_reach (A := fun i => Uses (actions i).repertoire)
    (fun i => each_action (actions i)) hc
  obtain ⟨β, act, b, huses, hact⟩ := (Config.each_step heach hs).1
  exact reservationsGo_of_ops (huses _ b _ hact)

theorem reservation_moves_reach {actions : τ → Action} {w₀ : World}
    {c c' : Config τ World WorkflowError (Option Reply)} (hc : (begun actions w₀).Reach c)
    (hr : c.Reach c') {rid : String} {r : Reservation}
    (hget : c.world.reservations.get rid = some r) :
    ∃ r', c'.world.reservations.get rid = some r' ∧ r.Moves r' := by
  induction hr with
  | refl => exact ⟨r, hget, .inl rfl⟩
  | tail hr hs ih =>
    obtain ⟨j, hj⟩ := hs
    obtain ⟨r₁, hget₁, hm⟩ := ih
    obtain ⟨r₂, hget₂, hg⟩ := (reservationsGo_step (hc.trans hr) hj).get hget₁
    exact ⟨r₂, hget₂, hm.trans hg.moves⟩

/-- A reservation keeps its data for ever, and its status once it is CONFIRMED, EXPIRED or
CANCELLED. None is made. It becomes CONFIRMED only in a step whose clock reading is not past
`expiresAt`, and EXPIRED only in one whose reading is. -/
theorem reservation_ends_final (actions : τ → Action) (w₀ : World)
    {c : Config τ World WorkflowError (Option Reply)} (hc : (begun actions w₀).Reach c)
    (rid : String) :
    (∀ r, c.world.reservations.get rid = some r → ∀ c', c.Reach c' →
      ∃ r', c'.world.reservations.get rid = some r' ∧ r'.id = r.id ∧ r'.userId = r.userId
        ∧ r'.ticketTypeId = r.ticketTypeId ∧ r'.quantity = r.quantity ∧ r'.createdAt = r.createdAt
        ∧ r'.expiresAt = r.expiresAt ∧ r'.createdAt < r'.expiresAt
        ∧ (r.status = .confirmed ∨ r.status = .expired ∨ r.status = .cancelled →
          r'.status = r.status))
    ∧ ∀ i c', c.step i = some c' → ∀ r', c'.world.reservations.get rid = some r' →
      ∃ r, c.world.reservations.get rid = some r
        ∧ (r'.status = .confirmed → r.status = .confirmed
          ∨ ∃ now, (actions i).repertoire.confirmsAt = some now ∧ now ≤ r.expiresAt)
        ∧ (r'.status = .expired → r.status = .expired
          ∨ ∃ now, (actions i).repertoire.expiresAt = some now ∧ r.expiresAt < now) := by
  constructor
  · intro r hr c' hreach
    obtain ⟨r', hr', hm⟩ := reservation_moves_reach hc hreach hr
    refine ⟨r', hr', ?_⟩
    rcases hm with rfl | ⟨hopen, s, rfl⟩
    · exact ⟨rfl, rfl, rfl, rfl, rfl, rfl, r'.createdAt_lt, fun _ => rfl⟩
    · refine ⟨rfl, rfl, rfl, rfl, rfl, rfl, r.createdAt_lt, fun hend => ?_⟩
      -- an open reservation has not ended
      rcases hopen with ho | ho <;> simp [ho] at hend
  · intro i c' hs r' hr'
    obtain ⟨r, hr, hg⟩ := (reservationsGo_step hc hs).get_back hr'
    exact ⟨r, hr, hg.confirmed, hg.expired⟩

end Runs

/-- A confirmation at the very deadline, a cancellation, an expiry just past it, and a checkout. -/
def deadlineActions : Fin 4 → Action
  | 0 => .method (.confirm 600000 600000) "r1"
  | 1 => .method .cancel "r1"
  | 2 => .method (.expire 600001 600001) "r1"
  | 3 => .call (checkoutAt 1000 orderA)

/-- Confirmed at the deadline, the reservation stays so through all that follows. -/
theorem reservation_ends_final_deadline :
    ∃ c c', (begun deadlineActions heldWorld).runSchedule [3, 0] = some c
      ∧ c.runSchedule [2, 1, 3] = some c' ∧ ∃ r', c'.world.reservations.get "r1" = some r'
        ∧ r'.status = .confirmed := by
  have hsome : ((begun deadlineActions heldWorld).runSchedule [3, 0]).isSome := by decide
  have hc := Option.eq_some_of_isSome hsome
  have hsome' : ((Option.get _ hsome).runSchedule [2, 1, 3]).isSome := rfl
  have hc' := Option.eq_some_of_isSome hsome'
  obtain ⟨r', hr', -, -, -, -, -, -, -, hend⟩ := (reservation_ends_final deadlineActions heldWorld
    (Config.reach_of_runSchedule _ hc) "r1").1 { heldSeat with status := .confirmed } rfl _
    (Config.reach_of_runSchedule _ hc')
  exact ⟨_, _, hc, hc', r', hr', hend (.inl rfl)⟩

end LaunchPad
