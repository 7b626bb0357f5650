import LaunchPad.Proofs.Refunds

/-!
# One refund, several keys

A refund is asked for under a key made of the order's id and the number of the attempt, and only an
attempt that was answered counts. So a request whose answer was lost is repeated under its key, and
one answered FAILED or TIMEOUT under a new one. The gateway guards a key, not a transaction: it can
refund a transaction twice if and only if it was asked to under two keys (`refundsOnce_iff_keyed`).
-/

namespace LaunchPad

open Interleave Rows

variable {w w' : World} {o : Order} {r : Reservation} {c : Call} {log : List PortEvent}

/-! ## Keys -/

/-- The key of an attempt. -/
def refundKey (orderId : String) (attempt : ℕ) : String :=
  "refund_" ++ orderId ++ "_" ++ toString attempt

theorem refundIdempotencyKey_eq (o : Order) :
    refundIdempotencyKey o = refundKey o.id (o.compensationAttempts.length + 1) := rfl

theorem append_cons_inj {α : Type} {x : α} : ∀ {l l' m m' : List α}, x ∉ m → x ∉ m' →
    l ++ x :: m = l' ++ x :: m' → l = l' ∧ m = m'
  | [], [], m, m', _, _, h => by simpa using h
  | [], a :: l', m, m', hm, _, h => by
    simp only [List.nil_append, List.cons_append, List.cons.injEq] at h
    exact absurd (h.2 ▸ by simp) hm
  | a :: l, [], m, m', _, hm', h => by
    simp only [List.nil_append, List.cons_append, List.cons.injEq] at h
    exact absurd (h.2 ▸ by simp) hm'
  | a :: l, a' :: l', m, m', hm, hm', h => by
    simp only [List.cons_append, List.cons.injEq] at h
    obtain ⟨h1, h2⟩ := append_cons_inj hm hm' h.2
    exact ⟨by rw [h.1, h1], h2⟩

/-- The number is what follows the last underscore. -/
theorem refundKey_inj {id id' : String} {n n' : ℕ} (h : refundKey id n = refundKey id' n') :
    id = id' ∧ n = n' := by
  have hlist : id.toList ++ '_' :: (toString n).toList = id'.toList
    ++ '_' :: (toString n').toList := by
    have := congrArg String.toList h
    simpa [refundKey] using this
  obtain ⟨h1, h2⟩ := append_cons_inj (by simp) (by simp) hlist
  refine ⟨String.toList_injective h1, ?_⟩
  have hdigits : Nat.ofDigitChars 10 (toString n).toList 0
      = Nat.ofDigitChars 10 (toString n').toList 0 := by rw [h2]
  simpa using hdigits

/-! ## Requests -/

/-- For one transaction of an order one key. -/
def Keyed (log : List PortEvent) : Prop :=
  ∀ q ∈ refundRequests log, ∀ q' ∈ refundRequests log, q.orderId = q'.orderId →
    q.transactionId = q'.transactionId → q.idempotencyKey = q'.idempotencyKey

/-! ## What a gateway may execute -/

theorem Executes.sublist {done : List RefundRequest} (h : Executes log done) :
    done.Sublist (refundRequests log) := by
  induction h with
  | nil => exact .slnil
  | execute _ q _ ih =>
    rw [refundRequests_append]
    exact ih.append (List.Sublist.refl _)
  | skip _ q ih =>
    rw [refundRequests_append]
    exact ih.trans (List.sublist_append_left _ _)
  | answer _ q res _ ih =>
    rw [refundRequests_append]
    exact ih.trans (List.sublist_append_left _ _)
  | other _ e _ _ ih =>
    rw [refundRequests_append]
    exact ih.trans (List.sublist_append_left _ _)

theorem Executes.keys_nodup {done : List RefundRequest} (h : Executes log done) :
    (done.map RefundRequest.idempotencyKey).Nodup := by
  induction h with
  | nil => simp
  | execute _ q hnew ih =>
    rw [List.map_append, List.map_singleton]
    refine List.nodup_append.2 ⟨ih, by simp, fun k hk k' hk' => ?_⟩
    rintro rfl
    rw [List.mem_singleton] at hk'
    exact hnew (hk' ▸ hk)
  | skip _ _ ih => exact ih
  | answer _ _ _ _ ih => exact ih
  | other _ _ _ _ ih => exact ih

/-- Under one key, one refund. -/
theorem Keyed.once (h : Keyed log) {done : List RefundRequest} (hd : Executes log done)
    (orderId txnId : String) :
    (done.filter fun q => q.orderId = orderId ∧ q.transactionId = txnId).length ≤ 1 := by
  by_contra hlen
  obtain ⟨q, q', rest, hl⟩ : ∃ q q' rest,
      done.filter (fun q => q.orderId = orderId ∧ q.transactionId = txnId) = q :: q' :: rest := by
    rcases hf : done.filter fun q => q.orderId = orderId ∧ q.transactionId = txnId with
      _ | ⟨q, _ | ⟨q', rest⟩⟩
    · rw [hf] at hlen
      exact absurd (Nat.zero_le 1) hlen
    · rw [hf] at hlen
      exact absurd (Nat.le_refl 1) hlen
    · exact ⟨q, q', rest, hf⟩
  have hmem : ∀ p ∈ q :: q' :: rest, p ∈ refundRequests log ∧ p.orderId = orderId
      ∧ p.transactionId = txnId := by
    intro p hp
    rw [← hl, List.mem_filter, decide_eq_true_eq] at hp
    exact ⟨hd.sublist.subset hp.1, hp.2⟩
  obtain ⟨hq, hq1, hq2⟩ := hmem q (by simp)
  obtain ⟨hq', hq1', hq2'⟩ := hmem q' (by simp)
  have hnodup : ((q :: q' :: rest).map RefundRequest.idempotencyKey).Nodup := by
    rw [← hl]
    exact hd.keys_nodup.sublist (List.filter_sublist.map _)
  simp only [List.map_cons, List.nodup_cons, List.mem_cons, not_or] at hnodup
  exact hnodup.1.1 (h q hq q' hq' (hq1.trans hq1'.symm) (hq2.trans hq2'.symm))

/-! ### A gateway that executes two requests -/

/-- Where a request is answered it has been made, and the requests under its key are all before. -/
def AnsweredLast (log : List PortEvent) : Prop :=
  ∀ l a l', log = l ++ a :: l' → ∀ q result, a = .refundAnswered q result →
    q ∈ refundRequests l ∧ ∀ q' ∈ refundRequests l', q'.idempotencyKey ≠ q.idempotencyKey

section Adversary

variable {q₁ q₂ : RefundRequest}

/-- Of the requests under their keys, only these two. -/
def Chosen (q₁ q₂ q : RefundRequest) : Prop :=
  (q.idempotencyKey = q₁.idempotencyKey → q = q₁) ∧ (q.idempotencyKey = q₂.idempotencyKey → q = q₂)

/-- Every answer comes after the request chosen under its key. -/
def AfterChosen (q₁ q₂ : RefundRequest) (l : List PortEvent) (a : PortEvent) : Prop :=
  ∀ q result, a = .refundAnswered q result → ∃ q' ∈ refundRequests l, Chosen q₁ q₂ q'
    ∧ q'.idempotencyKey = q.idempotencyKey

/-- A gateway that executes the first chosen request under every key. -/
theorem exists_executes_chosen (log : List PortEvent)
    (h : ∀ l a l', log = l ++ a :: l' → AfterChosen q₁ q₂ l a) :
    ∃ done, Executes log done ∧ (∀ q ∈ done, Chosen q₁ q₂ q)
      ∧ ∀ q ∈ refundRequests log, Chosen q₁ q₂ q →
        q.idempotencyKey ∈ done.map RefundRequest.idempotencyKey := by
  induction log using List.reverseRecOn with
  | nil => exact ⟨[], .nil, by simp, by simp [refundRequests]⟩
  | append_singleton log a ih =>
    obtain ⟨done, hd, hch, hall⟩ := ih (forall_split_append.1 h).1
    have hlast : AfterChosen q₁ q₂ log a := h log a [] rfl
    simp only [refundRequests_append, List.forall_mem_append]
    cases a with
    | refundRequested q =>
      have hone : refundRequests [.refundRequested q] = [q] := rfl
      simp only [hone, List.forall_mem_singleton]
      by_cases hq : Chosen q₁ q₂ q ∧ q.idempotencyKey ∉ done.map RefundRequest.idempotencyKey
      · refine ⟨done ++ [q], hd.execute q hq.2, ?_, fun q' hq' hc => ?_, fun _ => by simp⟩
        · simpa only [List.forall_mem_append, List.forall_mem_singleton] using ⟨hch, hq.1⟩
        · rw [List.map_append]
          exact List.mem_append_left _ (hall q' hq' hc)
      · refine ⟨done, hd.skip q, hch, hall, fun hc => ?_⟩
        by_contra hno
        exact hq ⟨hc, hno⟩
    | refundAnswered q result =>
      refine ⟨done, hd.answer q result fun _ => ?_, hch, hall, by simp [refundRequests]⟩
      obtain ⟨q', hq', hc, hkey⟩ := hlast q result rfl
      exact hkey ▸ hall q' hq' hc
    | _ => exact ⟨done, hd.other _ (by simp) (by simp), hch, hall, by simp [refundRequests]⟩

theorem chosen_left (hne : q₁.idempotencyKey ≠ q₂.idempotencyKey) : Chosen q₁ q₂ q₁ :=
  ⟨fun _ => rfl, fun h => absurd h hne⟩

theorem chosen_right (hne : q₁.idempotencyKey ≠ q₂.idempotencyKey) : Chosen q₁ q₂ q₂ :=
  ⟨fun h => absurd h.symm hne, fun _ => rfl⟩

/-- Requests under two keys may both be executed. -/
theorem exists_executes_both (hlast : AnsweredLast log) (h₁ : q₁ ∈ refundRequests log)
    (h₂ : q₂ ∈ refundRequests log) (hne : q₁.idempotencyKey ≠ q₂.idempotencyKey) :
    ∃ done, Executes log done ∧ q₁ ∈ done ∧ q₂ ∈ done := by
  have hbefore : ∀ l a l', log = l ++ a :: l' → AfterChosen q₁ q₂ l a := by
    rintro l a l' hl q result rfl
    obtain ⟨hq, hafter⟩ := hlast l _ l' hl q result rfl
    -- a request under the key of an answer stands before the answer
    have hfirst : ∀ p ∈ refundRequests log, p.idempotencyKey = q.idempotencyKey →
        p ∈ refundRequests l := by
      intro p hp hkey
      rw [hl, refundRequests_append] at hp
      rcases List.mem_append.1 hp with hp | hp
      · exact hp
      · exact absurd hkey (hafter p hp)
    by_cases hk₁ : q₁.idempotencyKey = q.idempotencyKey
    · exact ⟨q₁, hfirst q₁ h₁ hk₁, chosen_left hne, hk₁⟩
    by_cases hk₂ : q₂.idempotencyKey = q.idempotencyKey
    · exact ⟨q₂, hfirst q₂ h₂ hk₂, chosen_right hne, hk₂⟩
    exact ⟨q, hq, ⟨fun h => absurd h.symm hk₁, fun h => absurd h.symm hk₂⟩, rfl⟩
  obtain ⟨done, hd, hch, hall⟩ := exists_executes_chosen log hbefore
  refine ⟨done, hd, ?_, ?_⟩
  · obtain ⟨q, hq, hkey⟩ := List.mem_map.1 (hall q₁ h₁ (chosen_left hne))
    exact (hch q hq).1 hkey ▸ hq
  · obtain ⟨q, hq, hkey⟩ := List.mem_map.1 (hall q₂ h₂ (chosen_right hne))
    exact (hch q hq).2 hkey ▸ hq

end Adversary

/-- The gateway can refund a transaction twice if it was asked to under two keys, and only then. -/
theorem refundsOnce_iff_keyed (hlast : AnsweredLast w.log) : w.RefundsOnce ↔ Keyed w.log := by
  constructor
  · intro h q hq q' hq' hid htxn
    by_contra hne
    obtain ⟨done, hd, hmem, hmem'⟩ := exists_executes_both hlast hq hq' hne
    have hlen := h done hd q.orderId q.transactionId
    have hf : q ∈ done.filter fun p => p.orderId = q.orderId ∧ p.transactionId
      = q.transactionId := by
      simp [hmem]
    have hf' : q' ∈ done.filter fun p =>
        p.orderId = q.orderId ∧ p.transactionId = q.transactionId := by
      simp [hmem', hid, htxn]
    rcases hl : done.filter fun p => p.orderId = q.orderId ∧ p.transactionId = q.transactionId with
      _ | ⟨p, _ | ⟨p', rest⟩⟩
    · rw [hl] at hf
      simp at hf
    · rw [hl, List.mem_singleton] at hf hf'
      exact hne (by rw [hf, hf'])
    · rw [hl] at hlen
      simp at hlen
  · exact fun h done hd => h.once hd

/-! ## Steps -/

/-- Attempts that were answered are counted, and asked for under their number no more. -/
structure World.RefundsNumbered (w : World) : Prop where
  answered : ∀ q result, .refundAnswered q result ∈ w.log → ∃ o, w.orders.get q.orderId = some o
    ∧ ∃ n ≤ o.compensationAttempts.length, q.idempotencyKey = refundKey q.orderId n
  last : AnsweredLast w.log

theorem RefundTraffic.attempts_le {o' : Order} {t : Option String} {post : List PortEvent}
    (h : RefundTraffic o o' t post) :
    o.compensationAttempts.length ≤ o'.compensationAttempts.length := by
  cases h with
  | none h => rw [h]
  | thrown _ _ _ h => rw [h]
  | answered _ _ _ _ h => omega

/-- A refund asked for now has a key no answered request has. -/
theorem World.RefundsNumbered.fresh_key (h : w.RefundsNumbered) (ho : w.orders.get o.id = some o)
    {q : RefundRequest} {result : RefundResult} (hq : .refundAnswered q result ∈ w.log) :
    refundIdempotencyKey o ≠ q.idempotencyKey := by
  obtain ⟨o', ho', n, hn, hkey⟩ := h.answered q result hq
  intro heq
  rw [refundIdempotencyKey_eq, hkey] at heq
  obtain ⟨hid, hnum⟩ := refundKey_inj heq
  rw [← hid, ho] at ho'
  obtain rfl := Option.some.inj ho'
  omega

theorem refundRequests_eq_nil {pre : List PortEvent} (hpre : ∀ ev ∈ pre, ¬ ev.IsRefund) :
    refundRequests pre = [] := by
  refine List.eq_nil_iff_forall_not_mem.2 fun q hq => ?_
  exact hpre _ (mem_refundRequests.1 hq) trivial

theorem split_concat {α : Type} {l m m' : List α} {a e : α} (h : l ++ [e] = m ++ a :: m') :
    (l = m ∧ e = a ∧ m' = []) ∨ ∃ n, m' = n ++ [e] ∧ l = m ++ a :: n := by
  rcases List.eq_nil_or_concat m' with rfl | ⟨n, b, rfl⟩
  · obtain ⟨h1, h2⟩ := List.append_inj' h rfl
    exact .inl ⟨h1, List.cons.inj h2 |>.1, rfl⟩
  · rw [List.concat_eq_append] at h ⊢
    rw [← List.cons_append, ← List.append_assoc] at h
    obtain ⟨h1, h2⟩ := List.append_inj' h rfl
    exact .inr ⟨n, by rw [h2], h1⟩

section AnsweredLast

variable (h : AnsweredLast log)
include h

theorem AnsweredLast.request {q : RefundRequest} (hq : ∀ p result, .refundAnswered p result ∈ log →
    q.idempotencyKey ≠ p.idempotencyKey) : AnsweredLast (log ++ [.refundRequested q]) := by
  rintro l a l' heq p result rfl
  rcases split_concat heq with ⟨-, he, -⟩ | ⟨n, rfl, hlog⟩
  · cases he
  · obtain ⟨hp, hafter⟩ := h l _ n hlog p result rfl
    refine ⟨hp, fun q' hq' => ?_⟩
    rw [refundRequests_append] at hq'
    rcases List.mem_append.1 hq' with hq' | hq'
    · exact hafter q' hq'
    · obtain rfl : q' = q := List.mem_singleton.1 hq'
      exact hq p result (by rw [hlog]; simp)

theorem AnsweredLast.answer {q : RefundRequest} (hq : q ∈ refundRequests log)
    (result : RefundResult) : AnsweredLast (log ++ [.refundAnswered q result]) := by
  rintro l a l' heq p result' rfl
  rcases split_concat heq with ⟨rfl, he, rfl⟩ | ⟨n, rfl, hlog⟩
  · obtain ⟨rfl, rfl⟩ := PortEvent.refundAnswered.inj he
    exact ⟨hq, by simp [refundRequests]⟩
  · obtain ⟨hp, hafter⟩ := h l _ n hlog p result' rfl
    refine ⟨hp, fun q' hq' => hafter q' ?_⟩
    simpa [refundRequests_append, refundRequests] using hq'

theorem AnsweredLast.others {pre : List PortEvent} (hpre : ∀ ev ∈ pre, ¬ ev.IsRefund) :
    AnsweredLast (log ++ pre) := by
  rintro l a l' heq p result rfl
  rcases List.append_eq_append_iff.1 heq with ⟨n, rfl, hev⟩ | ⟨n, hl, hn⟩
  · exact absurd trivial (hpre (.refundAnswered p result) (by rw [hev]; simp))
  · rcases n with _ | ⟨b, n⟩
    · rw [List.nil_append] at hn
      exact absurd trivial (hpre (.refundAnswered p result) (by rw [← hn]; simp))
    · simp only [List.cons_append, List.cons.injEq] at hn
      obtain ⟨hp, hafter⟩ := h l _ n (by rw [hl, hn.1]) p result rfl
      refine ⟨hp, fun q' hq' => hafter q' ?_⟩
      rwa [hn.2, refundRequests_append, refundRequests_eq_nil hpre, List.append_nil] at hq'

end AnsweredLast

/-- What a call asks for, and the answer, keep the answers last. -/
theorem World.RefundsNumbered.traffic {pre post : List PortEvent} {o' : Order} {t : Option String}
    (h : w.RefundsNumbered) (ho : w.orders.get o.id = some o) (hpre : ∀ ev ∈ pre, ¬ ev.IsRefund)
    (htraffic : RefundTraffic o o' t post) : AnsweredLast (w.log ++ (pre ++ post)) := by
  have hbase : AnsweredLast (w.log ++ pre) := h.last.others hpre
  have hfresh : ∀ {q : RefundRequest}, q.idempotencyKey = refundIdempotencyKey o → ∀ p result,
      .refundAnswered p result ∈ w.log ++ pre → q.idempotencyKey ≠ p.idempotencyKey := by
    intro q hkey p result hmem
    rw [hkey]
    exact h.fresh_key ho ((List.mem_append.1 hmem).resolve_right fun hm => hpre _ hm trivial)
  rw [← List.append_assoc]
  cases htraffic with
  | none => rwa [List.append_nil]
  | thrown q _ hkey => exact hbase.request (hfresh hkey)
  | answered q result _ hkey =>
    have hans := (hbase.request (hfresh hkey)).answer (q := q)
      (by rw [refundRequests_append]; simp [refundRequests]) result
    rwa [List.append_assoc] at hans

/-- Every order stays, with its attempts. -/
theorem Call.attempts_le (hl : w.Linked) {reply : Except WorkflowError Reply}
    (h : c.run w = some (reply, w')) {id : String} (ho : w.orders.get id = some o) :
    ∃ o', w'.orders.get id = some o'
      ∧ o.compensationAttempts.length ≤ o'.compensationAttempts.length := by
  rcases Call.cases hl h with ⟨hsame, -⟩ | ⟨id', o', r, -, ho', -, -, hw'⟩ |
    ⟨uid, r, amount, -, -, -, hfresh, rfl⟩ | ⟨r, -, -, -, rfl⟩
  · exact ⟨o, by rw [hsame.orders, ho], le_refl _⟩
  · obtain ⟨pre, post, -, -, htraffic⟩ := c.effect_refunds w o' r
    have hid : (c.effect w o' r).order.id = id' := by
      rw [(c.effect_frame w o' r).id, w.orders.get_key ho']
    by_cases hne : id = id'
    · subst hne
      obtain rfl := Option.some.inj (ho.symm.trans ho')
      exact ⟨_, by rw [hw'.orders, Repository.get_save, hid, if_pos rfl], htraffic.attempts_le⟩
    · exact ⟨o, by rw [hw'.orders, Repository.get_save_of_ne (by rwa [hid]), ho], le_refl _⟩
  · have hne : id ≠ uid.val := by
      rintro rfl
      simp [hfresh] at ho
    refine ⟨o, ?_, le_refl _⟩
    rw [← ho]
    exact Repository.get_save_of_ne (a := Order.ofReservation uid r amount) hne
  · exact ⟨o, ho, le_refl _⟩

theorem Call.refundsNumbered (hl : w.Linked) {reply : Except WorkflowError Reply}
    (h : c.run w = some (reply, w')) (hI : w.RefundsNumbered) : w'.RefundsNumbered := by
  have hkept : ∀ q result, .refundAnswered q result ∈ w.log → ∃ o, w'.orders.get q.orderId = some o
      ∧ ∃ n ≤ o.compensationAttempts.length, q.idempotencyKey = refundKey q.orderId n := by
    intro q result hq
    obtain ⟨o, ho, n, hn, hkey⟩ := hI.answered q result hq
    obtain ⟨o', ho', hle⟩ := Call.attempts_le hl h ho
    exact ⟨o', ho', n, hn.trans hle, hkey⟩
  rcases Call.cases hl h with ⟨hsame, -⟩ | ⟨id, o, r, -, ho, -, -, hw'⟩ |
    ⟨uid, r, amount, -, -, -, -, rfl⟩ | ⟨r, -, -, -, rfl⟩
  · exact ⟨by rwa [hsame.log], by rw [hsame.log]; exact hI.last⟩
  · obtain ⟨pre, post, hev, hpre, htraffic⟩ := c.effect_refunds w o r
    have hoid : o.id = id := w.orders.get_key ho
    refine ⟨fun q result hq => ?_, ?_⟩
    · rw [hw'.log, hev, List.mem_append, List.mem_append] at hq
      rcases hq with hq | hq | hq
      · exact hkept q result hq
      · exact absurd trivial (hpre _ hq)
      · generalize c.refunds o r = t at htraffic
        cases htraffic with
        | none => simp at hq
        | thrown => simp at hq
        | answered p res hid hkey hlen =>
          simp only [List.mem_cons, reduceCtorEq, PortEvent.refundAnswered.injEq, List.not_mem_nil,
            or_false, false_or] at hq
          obtain ⟨rfl, rfl⟩ := hq
          refine ⟨(c.effect w o r).order, ?_, _, le_refl _, ?_⟩
          · rw [hw'.orders, Repository.get_save, (c.effect_frame w o r).id, hid, if_pos rfl]
          · rw [hkey, refundIdempotencyKey_eq, hlen, hid]
    · rw [hw'.log, hev]
      exact hI.traffic (by rw [hoid, ho]) hpre htraffic
  · exact ⟨hkept, hI.last⟩
  · exact ⟨hkept, hI.last⟩

/-- What it is to ask again, for a call whose order and reservation are at hand. -/
theorem asksAgain_iff {id : String} (hid : c.orderId = some id) (ho : w.orders.get id = some o)
    (hr : w.reservations.get o.reservationId = some r) :
    c.AsksAgain w ↔ ∃ t, c.refunds o r = some t ∧ ∃ q ∈ refundRequests w.log,
      q.orderId = o.id ∧ q.transactionId = t ∧ q.idempotencyKey ≠ refundIdempotencyKey o := by
  have hown := Call.exists_own_iff hid ho hr (P := fun id o r => ∃ t, c.refunds o r = some t
    ∧ ∃ q ∈ refundRequests w.log, q.orderId = id ∧ q.transactionId = t
      ∧ q.idempotencyKey ≠ refundIdempotencyKey o)
  rw [w.orders.get_key ho, ← hown]
  simp only [Call.AsksAgain, exists_and_left]

/-- The one new request against those before it. -/
theorem keyed_snoc_iff {log log' : List PortEvent} {p : RefundRequest} (hP : Keyed log)
    (hreq : refundRequests log' = refundRequests log ++ [p]) :
    Keyed log' ↔ ∀ q ∈ refundRequests log, q.orderId = p.orderId →
      q.transactionId = p.transactionId → q.idempotencyKey = p.idempotencyKey := by
  unfold Keyed
  rw [hreq]
  constructor
  · exact fun hk q hq => hk q (List.mem_append_left _ hq) p (by simp)
  · intro hold
    simp only [List.forall_mem_append, List.forall_mem_singleton]
    exact ⟨fun q hq => ⟨fun q' hq' => hP q hq q' hq', hold q hq⟩,
      fun q hq h1 h2 => (hold q hq h1.symm h2.symm).symm, fun _ _ => trivial⟩

/-- A call about a stored order that asks for a refund. -/
theorem keyed_request_iff {id : String} (hid : c.orderId = some id) (ho : w.orders.get id = some o)
    (hr : w.reservations.get o.reservationId = some r) {p : RefundRequest} {log : List PortEvent}
    (hP : Keyed w.log) (hreq : refundRequests log = refundRequests w.log ++ [p])
    (hpid : p.orderId = o.id) (hpkey : p.idempotencyKey = refundIdempotencyKey o)
    (hptxn : c.refunds o r = some p.transactionId) : Keyed log ↔ ¬ c.AsksAgain w := by
  rw [keyed_snoc_iff hP hreq, asksAgain_iff hid ho hr, hptxn, hpid, hpkey]
  constructor
  · rintro hold ⟨t, ht, q, hq, hqid, hqtxn, hqkey⟩
    exact hqkey (hold q hq hqid (hqtxn.trans (Option.some.inj ht).symm))
  · intro hok q hq hqid hqtxn
    by_contra hne
    exact hok ⟨_, rfl, q, hq, hqid, hqtxn, hne⟩

/-- A call keeps one key for every transaction unless it asks again. -/
theorem keyed_step (hl : w.Linked) {reply : Except WorkflowError Reply}
    (h : c.run w = some (reply, w')) (hP : Keyed w.log) : Keyed w'.log ↔ ¬ c.AsksAgain w := by
  rcases Call.cases hl h with ⟨hsame, hnone⟩ | ⟨id, o, r, hid, ho, hr, -, hw'⟩ |
    ⟨uid, r, amount, hid, -, -, -, rfl⟩ | ⟨r, hid, -, -, rfl⟩
  · refine iff_of_true (by rwa [hsame.log]) ?_
    rintro ⟨id', o', r, t, hid', ho', -⟩
    simp [hnone id' hid'] at ho'
  · obtain ⟨pre, post, hev, hpre, htraffic⟩ := c.effect_refunds w o r
    have hreq : refundRequests w'.log = refundRequests w.log ++ refundRequests post := by
      rw [hw'.log, hev, refundRequests_append, refundRequests_append, refundRequests_eq_nil hpre,
        List.nil_append]
    cases htr : c.refunds o r with
    | none =>
      rw [htr] at htraffic
      have hpost : post = [] := by
        cases htraffic
        rfl
      rw [asksAgain_iff hid ho hr, htr]
      refine iff_of_true ?_ (by simp)
      unfold Keyed
      rwa [hreq, hpost, show refundRequests [] = [] from rfl, List.append_nil]
    | some t =>
      rw [htr] at htraffic
      cases htraffic with
      | thrown p h1 h2 => exact keyed_request_iff hid ho hr hP hreq h1 h2 htr
      | answered p res h1 h2 => exact keyed_request_iff hid ho hr hP hreq h1 h2 htr
  · exact iff_of_true hP fun ⟨id', o', r, t, hid', _⟩ => by simp [hid] at hid'
  · exact iff_of_true hP fun ⟨id', o', r, t, hid', _⟩ => by simp [hid] at hid'

/-! ## Runs -/

/-- After every call of a run, and however a gateway behaves that executes each key at most once and
may not say so, it has executed one refund of a transaction for an order at most, if and only if no
call asks for a refund that was asked for before under another key. -/
theorem refunds_once_iff {w₀ : World} (h₀ : w₀.Initial) {steps : List Step} (h : Run w₀ steps w) :
    ((∀ s ∈ steps, s.before.RefundsOnce) ∧ w.RefundsOnce)
      ↔ ∀ s ∈ steps, ¬ s.call.AsksAgain s.before := by
  have hnumbered : w₀.RefundsNumbered := by
    refine ⟨fun q result hq => ?_, fun l a l' hlog => ?_⟩
    · simp [h₀.log] at hq
    · simp [h₀.log] at hlog
  have hkeyed : Keyed w₀.log := by
    intro q hq
    simp [h₀.log, refundRequests] at hq
  refine Run.iff_no_bad (I := fun v => v.Linked ∧ v.RefundsNumbered) (A := fun _ => True)
    (P := World.RefundsOnce) (B := Call.AsksAgain) ?_ ?_ ?_ ⟨linked_of_initial h₀, hnumbered⟩
    ((refundsOnce_iff_keyed hnumbered.last).2 hkeyed) h fun _ _ => trivial
  · exact fun hi _ hc => ⟨Call.linked hi.1 hc, Call.refundsNumbered hi.1 hc hi.2⟩
  · intro v c reply v' hi _ hc hP hok
    rw [refundsOnce_iff_keyed hi.2.last] at hP
    exact (refundsOnce_iff_keyed (Call.refundsNumbered hi.1 hc hi.2).last).2
      ((keyed_step hi.1 hc hP).2 hok)
  · intro v c reply v' hi _ hc hP hbad hP'
    rw [refundsOnce_iff_keyed hi.2.last] at hP
    rw [refundsOnce_iff_keyed (Call.refundsNumbered hi.1 hc hi.2).last] at hP'
    exact (keyed_step hi.1 hc hP).1 hP' hbad

/-- A payment whose tickets could not be issued and whose refund times out, and the retry. -/
def retriedRefund : List Call :=
  [checkoutAt 1 orderA, .processPayment ⟨"payment", .ok ⟨.success, some "t1", none⟩,
    .error (.external none), 2, 2, 2, 2, ⟨"refund", .ok ⟨.timeout, none, none⟩, 3⟩⟩
      ⟨"a", "card", "k1", none⟩, .retryCompensation (refundAt 4) "a"]

theorem retriedRefund_isSome : (runCalls [] heldWorld retriedRefund).isSome := by decide

def retriedWorld : World := ((runCalls [] heldWorld retriedRefund).get retriedRefund_isSome).2

def firstRefund : RefundRequest :=
  ⟨"refund", "t1", "a", ⟨5000, "USD"⟩, .fulfillment (.external none), "refund_a_1"⟩

def secondRefund : RefundRequest := ⟨"refund", "t1", "a", ⟨5000, "USD"⟩, .retry, "refund_a_2"⟩

/-- The gateway executes the refund, answers TIMEOUT, and executes the retry as well. -/
theorem retriedWorld_executes : Executes retriedWorld.log [firstRefund, secondRefund] :=
  Executes.nil.other (.chargeRequested ⟨"payment", "a", ⟨5000, "USD"⟩, "card", "k1", none⟩)
      (by simp) (by simp)
    |>.other (.chargeAnswered ⟨"payment", "a", ⟨5000, "USD"⟩, "card", "k1", none⟩
      ⟨.success, some "t1", none⟩) (by simp) (by simp)
    |>.other (.ticketRequested "a") (by simp) (by simp)
    |>.execute firstRefund (by simp)
    |>.answer firstRefund ⟨.timeout, none, none⟩ (by simp)
    |>.execute secondRefund (by simp [firstRefund, secondRefund])
    |>.answer secondRefund ⟨.success, some "rf", none⟩ (by simp)

theorem retriedWorld_twice : ¬ retriedWorld.RefundsOnce := by
  intro h
  have hlen := h _ retriedWorld_executes "a" "t1"
  revert hlen
  decide

theorem refunds_once_iff_retried :
    ∃ steps, Run heldWorld steps retriedWorld ∧ ∃ s ∈ steps, s.call.AsksAgain s.before := by
  obtain ⟨hrun, -⟩ := run_runCalls retriedRefund_isSome
  refine ⟨_, hrun, ?_⟩
  by_contra hno
  have hok := (refunds_once_iff heldWorld_initial hrun).2 fun s hs hbad => hno ⟨s, hs, hbad⟩
  exact retriedWorld_twice hok.2

/-- Against a gateway that executes each key at most once, one transaction is refunded twice. -/
theorem refunded_twice :
    heldWorld.Initial ∧ ∃ steps w, Run heldWorld steps w ∧ ∃ done, Executes w.log done
      ∧ 1 < (done.filter fun q => q.orderId = "a" ∧ q.transactionId = "t1").length := by
  obtain ⟨hrun, -⟩ := run_runCalls retriedRefund_isSome
  exact ⟨heldWorld_initial, _, retriedWorld, hrun, _, retriedWorld_executes, by decide⟩

end LaunchPad
