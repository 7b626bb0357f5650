import LaunchPad.Lib.Protocol
import LaunchPad.NaiveInventory
import LaunchPad.Proofs.Ledger
import Mathlib.Algebra.Order.Group.Int

/-!
# Seats sold twice, and no CHECK fires

A call writes what it has read less what it takes, so `available_qty + reserved_qty` stays what it
was and every row it writes passes the CHECKs. The row no longer tells what has been granted once a
call has written over another's write.
-/

namespace LaunchPad

open Interleave Rows StaleWrites

variable {τ : Type}

/-- Where a call stands. -/
inductive NaivePhase
  | start
  | delaying (availableQty reservedQty : ℤ)
  | writing (availableQty reservedQty : ℤ)
  | granted
  | ended

/-- The quantities the call has read and is going to use. -/
def NaivePhase.read : NaivePhase → Option (ℤ × ℤ)
  | delaying a r => some (a, r)
  | writing a r => some (a, r)
  | _ => none

/-- The row that a call writes which has read these quantities. -/
def PoolRow.rewritten (p : PoolRow) (a r q : ℤ) : PoolRow :=
  { p with availableQty := a - q, reservedQty := r + q }

/-- The segments of a call. -/
def NaiveMove (call : NaiveCall) (t : τ) :
    NaivePhase → NaiveDb τ → NaiveDb τ → NaivePhase → Prop
  | .start, db, db', s' => db' = db ∧ s' = .ended
    ∨ ∃ p, db.pools.row call.ticketTypeId = some p
      ∧ db' = { db with log := db.log ++ [.read t call.ticketTypeId] }
      ∧ (s' = .ended ∨ s' = .delaying p.availableQty p.reservedQty
        ∧ call.requestedQty ≤ p.availableQty)
  | .delaying a r, db, db', s' => db' = db ∧ s' = .writing a r
  | .writing a r, db, db', s' => db' = db ∧ s' = .ended
    ∨ db' = db ∧ db.pools.row call.ticketTypeId = none
    ∨ ∃ p, db.pools.row call.ticketTypeId = some p
      ∧ (p.rewritten a r call.requestedQty).violated = none
      ∧ db' = ⟨db.pools.set call.ticketTypeId (p.rewritten a r call.requestedQty),
          db.log ++ [.wrote t call.ticketTypeId call.requestedQty]⟩
      ∧ (s' = .granted ∨ s' = .ended)
  | _, _, _, _ => False

theorem selectPool_eq_some {t : τ} {k : String} {db db' : NaiveDb τ}
    {r : Except DbError (Option (ℤ × ℤ))} (h : selectPool t k db = some (r, db')) :
    (db.pools.row k = none ∧ r = .ok none ∧ db' = db)
      ∨ ∃ p, db.pools.row k = some p ∧ r = .ok (some (p.availableQty, p.reservedQty))
        ∧ db' = { db with log := db.log ++ [.read t k] } := by
  unfold selectPool at h
  rcases hrow : db.pools.row k with _ | p <;> rw [hrow] at h <;>
    simp only [Option.some.injEq, Prod.mk.injEq] at h <;> obtain ⟨rfl, rfl⟩ := h
  · exact .inl ⟨rfl, rfl, rfl⟩
  · exact .inr ⟨p, rfl, rfl, rfl⟩

theorem updatePool_eq_some {t : τ} {k : String} {a r q : ℤ} {db db' : NaiveDb τ}
    {res : Except DbError Unit} (h : updatePool t k q (a - q) (r + q) db = some (res, db')) :
    (db.pools.row k = none ∧ res = .ok () ∧ db' = db)
      ∨ (∃ e, res = .error e) ∧ db' = db
      ∨ ∃ p, db.pools.row k = some p ∧ (p.rewritten a r q).violated = none ∧ res = .ok ()
        ∧ db' = ⟨db.pools.set k (p.rewritten a r q), db.log ++ [.wrote t k q]⟩ := by
  unfold updatePool at h
  rcases hrow : db.pools.row k with _ | p <;> rw [hrow] at h
  · simp only [Option.some.injEq, Prod.mk.injEq] at h
    obtain ⟨rfl, rfl⟩ := h
    exact .inl ⟨rfl, rfl, rfl⟩
  · rcases hv : (p.rewritten a r q).violated with _ | c <;>
      simp only [show { p with availableQty := a - q, reservedQty := r + q }
        = p.rewritten a r q from rfl, hv, Option.some.injEq, Prod.mk.injEq] at h <;>
      obtain ⟨rfl, rfl⟩ := h
    · exact .inr (.inr ⟨p, rfl, hv, rfl, rfl⟩)
    · exact .inr (.inl ⟨⟨_, rfl⟩, rfl⟩)

/-- A call that returns success has been granted its seats. -/
def NaiveEnds (r : Except DbError NaiveReservationResult) (s : NaivePhase) : Prop :=
  ∀ a, r = .ok a → a.success = true → s = .granted

theorem naive_select {call : NaiveCall} {t : τ} {db db' : NaiveDb τ}
    {r : Except DbError (Option (ℤ × ℤ))}
    (h : autocommit .statementFailed call.env.onSelect (selectPool t call.ticketTypeId) db
      = some (r, db')) :
    (∀ a, r = .ok (some a) → ¬ a.1 < call.requestedQty →
        NaiveMove call t .start db db' (.delaying a.1 a.2))
      ∧ NaiveMove call t .start db db' .ended := by
  rcases autocommit_eq_some.1 h with ⟨-, h⟩ | ⟨-, rfl, rfl⟩ | ⟨-, rfl, _, h⟩
  · rcases selectPool_eq_some h with ⟨-, rfl, rfl⟩ | ⟨p, hp, rfl, rfl⟩
    · exact ⟨nofun, .inl ⟨rfl, rfl⟩⟩
    · refine ⟨fun a ha hq => .inr ⟨p, hp, rfl, .inr ⟨?_, ?_⟩⟩, .inr ⟨p, hp, rfl, .inl rfl⟩⟩
      · cases ha
        rfl
      · cases ha
        exact not_lt.1 hq
  · exact ⟨nofun, .inl ⟨rfl, rfl⟩⟩
  · rcases selectPool_eq_some h with ⟨-, -, rfl⟩ | ⟨p, hp, -, rfl⟩
    · exact ⟨nofun, .inl ⟨rfl, rfl⟩⟩
    · exact ⟨nofun, .inr ⟨p, hp, rfl, .inl rfl⟩⟩

theorem naive_update {call : NaiveCall} {t : τ} {a r : ℤ} {db db' : NaiveDb τ}
    {res : Except DbError Unit}
    (h : autocommit .statementFailed call.env.onUpdate (updatePool t call.ticketTypeId
      call.requestedQty (a - call.requestedQty) (r + call.requestedQty)) db = some (res, db')) :
    NaiveMove call t (.writing a r) db db' (if res = .ok () then .granted else .ended) := by
  rcases autocommit_eq_some.1 h with ⟨-, h⟩ | ⟨-, rfl, rfl⟩ | ⟨-, rfl, _, h⟩
  · rcases updatePool_eq_some h with ⟨hp, -, rfl⟩ | ⟨⟨e, rfl⟩, rfl⟩ | ⟨p, hp, hv, rfl, rfl⟩
    · exact .inr (.inl ⟨rfl, hp⟩)
    · exact .inl ⟨rfl, if_neg nofun⟩
    · exact .inr (.inr ⟨p, hp, hv, rfl, .inl (if_pos rfl)⟩)
  · exact .inl ⟨rfl, if_neg nofun⟩
  · rcases updatePool_eq_some h with ⟨-, -, rfl⟩ | ⟨-, rfl⟩ | ⟨p, hp, hv, -, rfl⟩
    · exact .inl ⟨rfl, if_neg nofun⟩
    · exact .inl ⟨rfl, if_neg nofun⟩
    · exact .inr (.inr ⟨p, hp, hv, rfl, .inr (if_neg nofun)⟩)

theorem follows_reserveNaive (call : NaiveCall) (t : τ) :
    Follows (NaiveMove call t) NaiveEnds
      (reserveNaive call.env t call.ticketTypeId call.requestedQty) .start := by
  have hfail : ∀ {msg : String} {a : Option ℤ},
      NaiveEnds (.ok ⟨false, msg, a⟩) .ended := by
    intro msg a b hb hs
    cases hb
    cases hs
  unfold reserveNaive
  refine Follows.await_bind (K := fun r s =>
      (∀ a, r = .ok (some a) → a.1 < call.requestedQty) ∧ s = .ended
        ∨ ∃ a, r = .ok (some a) ∧ ¬ a.1 < call.requestedQty ∧ s = .delaying a.1 a.2)
    (fun db r db' h => ?_) (fun b s hs => ?_) fun e s hs a ha => nomatch ha
  · obtain ⟨hread, hended⟩ := naive_select h
    by_cases hr : ∃ a, r = .ok (some a) ∧ ¬ a.1 < call.requestedQty
    · obtain ⟨a, rfl, hq⟩ := hr
      exact ⟨_, hread a rfl hq, .inr ⟨a, rfl, hq, rfl⟩⟩
    · push Not at hr
      exact ⟨_, hended, .inl ⟨hr, rfl⟩⟩
  · rcases b with _ | ⟨a, r⟩
    · rcases hs with ⟨-, rfl⟩ | ⟨_, h, -⟩
      · exact Follows.pure hfail
      · cases h
    · rcases hs with ⟨hlt, rfl⟩ | ⟨_, h, hq, rfl⟩
      · change Follows _ _ (if a < call.requestedQty then _ else _) _
        rw [if_pos (hlt (a, r) rfl)]
        exact Follows.pure hfail
      · cases h
        change Follows _ _ (if a < call.requestedQty then _ else _) _
        rw [if_neg hq]
        refine Follows.await_bind (K := fun _ s => s = .writing a r)
          (fun db res db' h => ⟨_, ⟨?_, rfl⟩, rfl⟩) (fun _ s hs => ?_) fun e s hs a ha => nomatch ha
        · simp only [Sync.pure_apply, Option.some.injEq, Prod.mk.injEq] at h
          exact h.2.symm
        · rw [hs]
          refine Follows.await_bind (K := fun res s => s = if res = .ok () then .granted else .ended)
            (fun db res db' h => ⟨_, naive_update h, rfl⟩) (fun _ s hs => ?_)
            fun e s hs a ha => nomatch ha
          exact Follows.pure fun _ _ _ => hs.trans (if_pos rfl)

/-! ## Runs -/

section Runs

variable [DecidableEq τ] {P : Table String PoolRow} {calls : τ → NaiveCall}
  {φ : τ → NaivePhase} {db db' : NaiveDb τ} {t : τ} {s' : NaivePhase}

/-- The row of a pool, after the accesses in the log. What a call has read adds up, too. -/
structure PoolInv (calls : τ → NaiveCall) (φ : τ → NaivePhase) (log : List (NaiveEvent τ))
    (k : String) (p₀ p : PoolRow) : Prop where
  valid : p.violated = none
  totalCapacity : p.totalCapacity = p₀.totalCapacity
  soldQty : p.soldQty = p₀.soldQty
  cell : ∃ seen, Cell p₀.availableQty (accesses k log) seen p.availableQty
    ∧ ∀ t a r, (φ t).read = some (a, r) → (calls t).ticketTypeId = k →
      seen t = some a ∧ (calls t).requestedQty ≤ a ∧ 0 ≤ r
        ∧ a + r + p₀.soldQty = p₀.totalCapacity

structure NaiveInv (P : Table String PoolRow) (calls : τ → NaiveCall) (φ : τ → NaivePhase)
    (db : NaiveDb τ) : Prop where
  absent : ∀ k, P.row k = none → db.pools.row k = none
  pool : ∀ k p₀, P.row k = some p₀ → ∃ p, db.pools.row k = some p
    ∧ PoolInv calls φ db.log k p₀ p
  /-- A call that is going to write has found a pool. -/
  found : ∀ t a, (φ t).read = some a → P.row (calls t).ticketTypeId ≠ none
  wrote : ∀ t k q, .wrote t k q ∈ db.log →
    k = (calls t).ticketTypeId ∧ q = (calls t).requestedQty
  granted : ∀ t, φ t = .granted →
    .wrote t (calls t).ticketTypeId (calls t).requestedQty ∈ db.log

theorem PoolRow.adds_up {p : PoolRow} (hp : p.violated = none) :
    p.availableQty + p.reservedQty + p.soldQty = p.totalCapacity ∧ 0 ≤ p.reservedQty := by
  unfold violated at hp
  split_ifs at hp
  omega

omit [DecidableEq τ] in
theorem accesses_snoc (k : String) (log : List (NaiveEvent τ)) (e : NaiveEvent τ) :
    accesses k (log ++ [e]) = accesses k log ++ (e.access k).toList := by
  rw [accesses, List.filterMap_append]
  rcases h : e.access k with _ | a <;> simp [accesses, h]

theorem PoolInv.of_other {log : List (NaiveEvent τ)} {k : String} {p₀ p : PoolRow}
    (h : PoolInv calls φ log k p₀ p) {e : NaiveEvent τ} (he : e.access k = none)
    (hread : ∀ a, s'.read = some a → (calls t).ticketTypeId = k → (φ t).read = some a) :
    PoolInv calls (Function.update φ t s') (log ++ [e]) k p₀ p := by
  obtain ⟨seen, hcell, hseen⟩ := h.cell
  refine ⟨h.valid, h.totalCapacity, h.soldQty, seen, ?_, fun t' a r ht' hk => ?_⟩
  · rwa [accesses_snoc, he, Option.toList_none, List.append_nil]
  · rcases eq_or_ne t' t with rfl | hne
    · rw [Function.update_self] at ht'
      exact hseen t' a r (hread _ ht' hk) hk
    · rw [Function.update_of_ne hne] at ht'
      exact hseen t' a r ht' hk

/-- Nothing is read or written. -/
theorem NaiveInv.idle (h : NaiveInv P calls φ db)
    (hread : ∀ a, s'.read = some a → (φ t).read = some a) (hs : s' ≠ .granted) :
    NaiveInv P calls (Function.update φ t s') db := by
  have hφ : ∀ t' a, (Function.update φ t s' t').read = some a → (φ t').read = some a := by
    intro t' a ht'
    rcases eq_or_ne t' t with rfl | hne
    · rw [Function.update_self] at ht'
      exact hread a ht'
    · rwa [Function.update_of_ne hne] at ht'
  refine ⟨h.absent, fun k p₀ hp₀ => ?_, fun t' a ht' => h.found t' a (hφ t' a ht'), h.wrote,
    fun t' ht' => ?_⟩
  · obtain ⟨p, hp, hpool⟩ := h.pool k p₀ hp₀
    obtain ⟨seen, hcell, hseen⟩ := hpool.cell
    exact ⟨p, hp, hpool.valid, hpool.totalCapacity, hpool.soldQty, seen, hcell,
      fun t' a r ht' => hseen t' a r (hφ t' (a, r) ht')⟩
  · rcases eq_or_ne t' t with rfl | hne
    · rw [Function.update_self] at ht'
      exact absurd ht' hs
    · rw [Function.update_of_ne hne] at ht'
      exact h.granted t' ht'

theorem NaiveInv.select (h : NaiveInv P calls φ db) {p : PoolRow}
    (hp : db.pools.row (calls t).ticketTypeId = some p)
    (hs : s' = .ended ∨ s' = .delaying p.availableQty p.reservedQty
      ∧ (calls t).requestedQty ≤ p.availableQty) :
    NaiveInv P calls (Function.update φ t s')
      { db with log := db.log ++ [.read t (calls t).ticketTypeId] } := by
  have hs' : ∀ a r, s'.read = some (a, r) →
      a = p.availableQty ∧ r = p.reservedQty ∧ (calls t).requestedQty ≤ p.availableQty := by
    intro a r ha
    rcases hs with rfl | ⟨rfl, hq⟩
    · cases ha
    · cases ha
      exact ⟨rfl, rfl, hq⟩
  have hpool₀ : P.row (calls t).ticketTypeId ≠ none := fun h0 => by
    rw [h.absent _ h0] at hp
    cases hp
  refine ⟨h.absent, fun k p₀ hp₀ => ?_, fun t' a ht' => ?_, fun t' k q hm => ?_, fun t' ht' => ?_⟩
  · obtain ⟨p₁, hp₁, hpool⟩ := h.pool k p₀ hp₀
    refine ⟨p₁, hp₁, ?_⟩
    by_cases hk : (calls t).ticketTypeId = k
    · obtain ⟨seen, hcell, hseen⟩ := hpool.cell
      obtain rfl : p = p₁ := Option.some.inj (hp.symm.trans (hk ▸ hp₁))
      refine ⟨hpool.valid, hpool.totalCapacity, hpool.soldQty,
        Function.update seen t (some p.availableQty), ?_, fun t' a r ht' hk' => ?_⟩
      · rw [accesses_snoc, NaiveEvent.access, if_pos hk]
        exact hcell.read t
      · rcases eq_or_ne t' t with rfl | hne
        · rw [Function.update_self] at ht'
          obtain ⟨rfl, rfl, hq⟩ := hs' a r ht'
          obtain ⟨hsum, hr⟩ := PoolRow.adds_up hpool.valid
          rw [hpool.totalCapacity, hpool.soldQty] at hsum
          exact ⟨Function.update_self .., hq, hr, hsum⟩
        · rw [Function.update_of_ne hne] at ht' ⊢
          exact hseen t' a r ht' hk'
    · exact hpool.of_other (by rw [NaiveEvent.access, if_neg hk]) fun a _ hk' => absurd hk' hk
  · rcases eq_or_ne t' t with rfl | hne
    · exact hpool₀
    · rw [Function.update_of_ne hne] at ht'
      exact h.found t' a ht'
  · rcases List.mem_append.1 hm with hm | hm
    · exact h.wrote t' k q hm
    · simp at hm
  · rcases eq_or_ne t' t with rfl | hne
    · rw [Function.update_self] at ht'
      rcases hs with rfl | ⟨rfl, -⟩ <;> cases ht'
    · rw [Function.update_of_ne hne] at ht'
      exact List.mem_append_left _ (h.granted t' ht')

theorem NaiveInv.update (h : NaiveInv P calls φ db) {p : PoolRow} {a r : ℤ}
    (hφ : φ t = .writing a r) (hp : db.pools.row (calls t).ticketTypeId = some p)
    (hv : (p.rewritten a r (calls t).requestedQty).violated = none) (hs : s'.read = none) :
    NaiveInv P calls (Function.update φ t s')
      ⟨db.pools.set (calls t).ticketTypeId (p.rewritten a r (calls t).requestedQty),
        db.log ++ [.wrote t (calls t).ticketTypeId (calls t).requestedQty]⟩ := by
  have hread : (φ t).read = some (a, r) := by rw [hφ, NaivePhase.read]
  have hφ' : ∀ t' b, (Function.update φ t s' t').read = some b →
      t' ≠ t ∧ (φ t').read = some b := by
    intro t' b ht'
    rcases eq_or_ne t' t with rfl | hne
    · rw [Function.update_self, hs] at ht'
      cases ht'
    · exact ⟨hne, by rwa [Function.update_of_ne hne] at ht'⟩
  refine ⟨fun k hk => ?_, fun k p₀ hp₀ => ?_, fun t' b ht' => h.found t' b (hφ' t' b ht').2,
    fun t' k q hm => ?_, fun t' ht' => ?_⟩
  · rw [Table.set_row, if_neg (fun he : k = (calls t).ticketTypeId => h.found t _ hread (he ▸ hk))]
    exact h.absent k hk
  · obtain ⟨p₁, hp₁, hpool⟩ := h.pool k p₀ hp₀
    by_cases hk : (calls t).ticketTypeId = k
    · obtain ⟨seen, hcell, hseen⟩ := hpool.cell
      obtain rfl : p = p₁ := Option.some.inj (hp.symm.trans (hk ▸ hp₁))
      refine ⟨_, by rw [← hk, Table.set_row_self], hv, hpool.totalCapacity, hpool.soldQty,
        Function.update seen t none, ?_, fun t' b r' ht' hk' => ?_⟩
      · rw [accesses_snoc, NaiveEvent.access, if_pos hk]
        exact hcell.write t _ (hseen t a r hread hk).1
      · obtain ⟨hne, ht'⟩ := hφ' t' _ ht'
        rw [Function.update_of_ne hne]
        exact hseen t' b r' ht' hk'
    · refine ⟨p₁, by rw [Table.set_row, if_neg (Ne.symm hk)]; exact hp₁,
        hpool.of_other (by rw [NaiveEvent.access, if_neg hk]) fun b hb => ?_⟩
      rw [hs] at hb
      cases hb
  · rcases List.mem_append.1 hm with hm | hm
    · exact h.wrote t' k q hm
    · simp only [List.mem_singleton, NaiveEvent.wrote.injEq] at hm
      obtain ⟨rfl, rfl, rfl⟩ := hm
      exact ⟨rfl, rfl⟩
  · rcases eq_or_ne t' t with rfl | hne
    · simp
    · rw [Function.update_of_ne hne] at ht'
      exact List.mem_append_left _ (h.granted t' ht')

theorem NaiveInv.move (h : NaiveInv P calls φ db) (hm : NaiveMove (calls t) t (φ t) db db' s') :
    NaiveInv P calls (Function.update φ t s') db' := by
  rcases hφ : φ t with _ | ⟨a, r⟩ | ⟨a, r⟩ | _ | _ <;> rw [hφ] at hm
  · rcases hm with ⟨rfl, rfl⟩ | ⟨p, hp, rfl, hs⟩
    · exact h.idle nofun nofun
    · exact h.select hp hs
  · obtain ⟨rfl, rfl⟩ := hm
    exact h.idle (fun b hb => by rw [hφ]; exact hb) nofun
  · rcases hm with ⟨rfl, rfl⟩ | ⟨-, hp⟩ | ⟨p, hp, hv, rfl, hs⟩
    · exact h.idle nofun nofun
    · have hfound := h.found t (a, r) (by rw [hφ, NaivePhase.read])
      obtain ⟨p₀, hp₀⟩ := Option.ne_none_iff_exists'.1 hfound
      obtain ⟨p, hp', -⟩ := h.pool _ p₀ hp₀
      rw [hp] at hp'
      cases hp'
    · refine h.update hφ hp hv ?_
      rcases hs with rfl | rfl <;> rfl
  · exact hm.elim
  · exact hm.elim

/-- Any number of calls without a lock, each for at least one seat, interleaved statement by
statement in any way. Every row a call writes passes the CHECKs, and what is available and what has
been granted never add up to less than there was. They add up to it as long as no call has written
over another's write, and to more from then on. -/
theorem naive_oversells_iff (hvalid : ∀ k p₀, P.row k = some p₀ → p₀.violated = none)
    (hpos : ∀ t, 0 < (calls t).requestedQty)
    {h : List (Taken τ (NaiveDb τ))} {c : Config τ (NaiveDb τ) DbError NaiveReservationResult}
    (hrun : (naiveCalls P calls).Run h c) :
    (∀ k p₀, P.row k = some p₀ → ∃ p, c.world.pools.row k = some p
        ∧ p.violated = none ∧ p.totalCapacity = p₀.totalCapacity ∧ p.soldQty = p₀.soldQty
        ∧ p₀.availableQty ≤ p.availableQty + taken (accesses k c.world.log)
        ∧ (p.availableQty + taken (accesses k c.world.log) = p₀.availableQty
          ↔ ¬ Overwritten (accesses k c.world.log)))
      ∧ ∀ t a, (c.thread t).result = some (.ok a) → a.success = true →
        .wrote t (calls t).ticketTypeId (calls t).requestedQty ∈ c.world.log := by
  have hstart : NaiveInv P calls (fun _ => .start) ⟨P, []⟩ :=
    ⟨fun _ hk => hk, fun k p₀ hp₀ => ⟨p₀, hp₀, hvalid k p₀ hp₀, rfl, rfl, _, .start, nofun⟩, nofun,
      nofun, nofun⟩
  obtain ⟨φ, hfollows, hinv⟩ := Follows.run (T := fun t => NaiveMove (calls t) t)
    (F := fun _ => NaiveEnds) (p := fun _ => .start) (I := fun _ φ db => NaiveInv P calls φ db)
    (fun t => follows_reserveNaive (calls t) t) hstart (fun _ _ _ _ _ _ hI hT => hI.move hT) hrun
  refine ⟨fun k p₀ hp₀ => ?_, fun t a ha hs => ?_⟩
  · obtain ⟨p, hp, hpool⟩ := hinv.pool k p₀ hp₀
    obtain ⟨seen, hcell, -⟩ := hpool.cell
    have htakes : Cell.Takes (accesses k c.world.log) := by
      intro t q hq
      obtain ⟨e, he, hacc⟩ := List.mem_filterMap.1 hq
      rcases e with ⟨t', k'⟩ | ⟨t', k', q'⟩ <;> simp only [NaiveEvent.access] at hacc <;>
        split_ifs at hacc <;> cases hacc
      rw [(hinv.wrote _ _ _ he).2]
      exact hpos t
    exact ⟨p, hp, hpool.valid, hpool.totalCapacity, hpool.soldQty, hcell.le_taken_add htakes,
      hcell.taken_add_eq_iff htakes⟩
  · exact hinv.granted t ((hfollows t).of_result ha a rfl hs)

end Runs

/-- Two buyers of the last seat. -/
def oneSeat : Table String PoolRow := Table.empty.set "ga" ⟨1, 1, 0, 0⟩

def oneSeatCalls (_ : Bool) : NaiveCall := ⟨⟨.answered, .answered⟩, "ga", 1⟩

theorem oneSeat_run : ∃ h c, (naiveCalls oneSeat oneSeatCalls).Run h c
    ∧ (∀ t, (c.thread t).result = some (.ok ⟨true, "Reserved successfully", some 1⟩))
    ∧ c.world.pools.row "ga" = some ⟨1, 0, 1, 0⟩ ∧ taken (accesses "ga" c.world.log) = 2 := by
  have hends : ((naiveCalls oneSeat oneSeatCalls).history
      [false, true, false, true, true, false]).any fun p =>
        (p.2.thread false).result = some (.ok ⟨true, "Reserved successfully", some 1⟩)
          ∧ (p.2.thread true).result = some (.ok ⟨true, "Reserved successfully", some 1⟩)
          ∧ p.2.world.pools.row "ga" = some ⟨1, 0, 1, 0⟩
          ∧ taken (accesses "ga" p.2.world.log) = 2 := by
    decide +kernel
  obtain ⟨⟨h, c⟩, hc, hends⟩ := (Option.any_eq_true _ _).1 hends
  obtain ⟨hfalse, htrue, hrow, htaken⟩ := of_decide_eq_true hends
  exact ⟨h, c, Config.run_of_history _ hc, Bool.rec hfalse htrue, hrow, htaken⟩

/-- Both read before either writes. Both are told that they have the seat, and the row shows one
seat reserved. -/
theorem naive_oversells_last_seat :
    ∃ h c, (naiveCalls oneSeat oneSeatCalls).Run h c
      ∧ (∀ t, (c.thread t).result = some (.ok ⟨true, "Reserved successfully", some 1⟩))
      ∧ (∃ p, c.world.pools.row "ga" = some p ∧ p.violated = none)
      ∧ Overwritten (accesses "ga" c.world.log) := by
  have hvalid : ∀ k p₀, oneSeat.row k = some p₀ → p₀.violated = none := by
    intro k p₀ hp₀
    rcases Table.set_row_eq_some.1 hp₀ with ⟨-, rfl⟩ | ⟨-, h⟩
    · decide
    · cases h
  obtain ⟨h, c, hrun, hboth, hrow, htaken⟩ := oneSeat_run
  obtain ⟨hpools, -⟩ := naive_oversells_iff hvalid (fun _ => Int.one_pos) hrun
  obtain ⟨p, hp, hv, -, -, -, hiff⟩ := hpools "ga" ⟨1, 1, 0, 0⟩ rfl
  refine ⟨h, c, hrun, hboth, ⟨p, hp, hv⟩, ?_⟩
  obtain rfl : p = ⟨1, 0, 1, 0⟩ := Option.some.inj (hp.symm.trans hrow)
  by_contra hno
  have heq := hiff.2 hno
  rw [htaken] at heq
  simp at heq

end LaunchPad
