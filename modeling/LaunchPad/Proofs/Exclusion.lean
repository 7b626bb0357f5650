import LaunchPad.Lib.Progress
import LaunchPad.Proofs.Idempotency

/-!
# One handler for a key

As long as the handlers under a key do not outrun their locks, the row of the key is locked for the
one that runs, and a lock that has expired is nobody's. Once a response is recorded nobody runs, and
then nothing changes the row any more, in time or not.
-/

namespace LaunchPad

open Interleave Rows

variable {τ β : Type}

section Keys

variable (calls : τ → HttpCall β) (key : String)

/-- Nothing happened to the key. -/
structure SameKey (db db' : IdempotencyDb τ β) : Prop where
  row : db'.keys.row key = db.keys.row key
  running : ∀ t, (calls t).key = some key → db'.running t = db.running t
  stored : ∀ e ∈ db'.stored, (calls e.request).key = some key → e ∈ db.stored
  runs : runsUnder calls key db' = runsUnder calls key db

/-- The response is recorded, and no handler runs. -/
structure Settled (statusCode : ℕ) (body : Option β) (db : IdempotencyDb τ β) : Prop where
  recorded : IsRecorded key statusCode body db
  nobody : ∀ t, (calls t).key = some key → db.running t = none

/-- The row is locked for the one handler that runs, and not where a response is stored. -/
structure Exclusive (db : IdempotencyDb τ β) : Prop where
  locked : ∀ t lease, (calls t).key = some key → db.running t = some lease →
    ∃ row, db.keys.row key = some row ∧ row.status = .inProgress
      ∧ row.lockedUntil = some lease.lockedUntil
  once : ∀ t t', (calls t).key = some key → (calls t').key = some key → (db.running t).isSome →
    (db.running t').isSome → t = t'
  settled : ∀ e ∈ db.stored, (calls e.request).key = some key →
    Settled calls key e.statusCode e.body db

variable {calls key} {db db' : IdempotencyDb τ β}

theorem Settled.same {statusCode : ℕ} {body : Option β} (h : Settled calls key statusCode body db)
    (hs : SameKey calls key db db') : Settled calls key statusCode body db' where
  recorded := by
    unfold IsRecorded
    rw [hs.row]
    exact h.recorded
  nobody t ht := (hs.running t ht).trans (h.nobody t ht)

theorem Exclusive.same (h : Exclusive calls key db) (hs : SameKey calls key db db') :
    Exclusive calls key db' where
  locked t lease ht hlease := by
    rw [hs.running t ht] at hlease
    rw [hs.row]
    exact h.locked t lease ht hlease
  once t t' ht ht' hr hr' := by
    rw [hs.running t ht] at hr
    rw [hs.running t' ht'] at hr'
    exact h.once t t' ht ht' hr hr'
  settled e he hkey := (h.settled e (hs.stored e he hkey) hkey).same hs

/-- Without a response and without a handler there is nothing to show. -/
theorem Exclusive.of_nobody (hstored : ∀ e ∈ db.stored, (calls e.request).key = some key → False)
    (hnobody : ∀ t, (calls t).key = some key → db.running t = none) : Exclusive calls key db where
  locked t lease ht hlease := by simp [hnobody t ht] at hlease
  once t t' ht _ hr := by simp [hnobody t ht] at hr
  settled e he hkey := (hstored e he hkey).elim

/-- Where the key has no row no response is stored. -/
theorem Exclusive.not_stored_of_absent (h : Exclusive calls key db) (hrow : db.keys.row key = none)
    (e : StoredResponse τ β) (he : e ∈ db.stored) (hkey : (calls e.request).key = some key) :
    False := by
  obtain ⟨row, hr, -⟩ := (h.settled e he hkey).recorded
  rw [hrow] at hr
  cases hr

/-- Where the row is in progress no response is stored. -/
theorem Exclusive.not_stored (h : Exclusive calls key db) {row : IdempotencyRow τ β}
    (hrow : db.keys.row key = some row) (hstatus : row.status = .inProgress)
    (e : StoredResponse τ β)
    (he : e ∈ db.stored) (hkey : (calls e.request).key = some key) : False := by
  obtain ⟨row', hr, hs, -⟩ := (h.settled e he hkey).recorded
  rw [← Option.some.inj (hrow.symm.trans hr), hstatus] at hs
  cases hs

end Keys

section Steps

variable [DecidableEq τ] {sha256 : String → String} {calls : τ → HttpCall β} {t : τ}
  {db db' : IdempotencyDb τ β} {key : String}

theorem runsUnder_grantIf_of_ne {granted : Bool} {lease : Lease τ} (ht : (calls t).key ≠ some key) :
    runsUnder calls key (db.grantIf granted t lease) = runsUnder calls key db := by
  cases granted
  · rfl
  · simp [runsUnder, IdempotencyDb.grantIf, IdempotencyDb.grant, ht]

/-- A request does nothing to the keys of others. -/
theorem KeyStep.same_of_ne (h : KeyStep sha256 calls t db db') (ht : (calls t).key ≠ some key) :
    SameKey calls key db db' := by
  have hne : ∀ {key'}, (calls t).key = some key' → key ≠ key' := fun hkey' he => ht (he ▸ hkey')
  have hrunning : ∀ t', (calls t').key = some key → db'.running t' = db.running t' :=
    fun t' ht' => h.running_other fun he => ht (he ▸ ht')
  cases h with
  | idle => exact ⟨rfl, fun _ _ => rfl, fun _ he _ => he, rfl⟩
  | tick => exact ⟨rfl, fun _ _ => rfl, fun _ he _ => he, rfl⟩
  | insert granted hkey =>
    refine ⟨?_, hrunning, fun e he _ => by simpa using he, runsUnder_grantIf_of_ne ht⟩
    rw [grantIf_keys, Table.set_row, if_neg (hne hkey)]
  | reclaim granted hkey =>
    refine ⟨?_, hrunning, fun e he _ => by simpa using he, runsUnder_grantIf_of_ne ht⟩
    rw [grantIf_keys, Table.set_row, if_neg (hne hkey)]
  | complete headers hkey hlease hrow he =>
    refine ⟨?_, hrunning, fun e' he' hkey' => ?_, rfl⟩
    · rw [release_keys, Table.set_row, if_neg (hne hkey)]
    · rcases List.mem_append.1 he' with he' | he'
      · exact he'
      · rw [List.mem_singleton.1 he', he] at hkey'
        exact absurd hkey' ht
  | fail hkey =>
    refine ⟨?_, hrunning, fun e he _ => he, rfl⟩
    rw [release_keys, Table.erase_row, if_neg (hne hkey)]
  | release => exact ⟨rfl, hrunning, fun _ he _ => he, rfl⟩

/-- A handler that has ended leaves the key to nobody. -/
theorem Exclusive.nobody_released (h : Exclusive calls key db) {lease : Lease τ}
    (ht : (calls t).key = some key) (hlease : db.running t = some lease) (t' : τ)
    (ht' : (calls t').key = some key) : Function.update db.running t none t' = none := by
  rw [Function.update_apply]
  split_ifs with he
  · rfl
  · by_contra hsome
    exact he (h.once t' t ht' ht (Option.isSome_iff_ne_none.2 hsome) (by simp [hlease]))

/-- The row of a key nobody holds is locked for a request. -/
theorem Exclusive.granted {row : IdempotencyRow τ β} {lease : Lease τ} (granted : Bool)
    (hstored : ∀ e ∈ db.stored, (calls e.request).key = some key → False)
    (hnobody : ∀ t, (calls t).key = some key → db.running t = none)
    (hstatus : row.status = .inProgress) (hlocked : row.lockedUntil = some lease.lockedUntil) :
    Exclusive calls key ({ db with keys := db.keys.set key row }.grantIf granted t lease) where
  locked t' lease' ht' hlease' := by
    rw [grantIf_running] at hlease'
    split_ifs at hlease' with hc
    · rw [← Option.some.inj hlease', grantIf_keys]
      exact ⟨row, Table.set_row_self .., hstatus, hlocked⟩
    · simp [hnobody t' ht'] at hlease'
  once t₁ t₂ ht₁ ht₂ hr₁ hr₂ := by
    rw [grantIf_running] at hr₁ hr₂
    split_ifs at hr₁ hr₂ with hc₁ hc₂
    · exact hc₁.2.trans hc₂.2.symm
    · simp [hnobody t₂ ht₂] at hr₂
    · simp [hnobody t₁ ht₁] at hr₁
    · simp [hnobody t₁ ht₁] at hr₁
  settled e he hkey := (hstored e (by simpa using he) hkey).elim

/-- The handler that runs stores its response. -/
theorem Exclusive.completed (h : Exclusive calls key db) {row : IdempotencyRow τ β}
    {lease : Lease τ}
    {e : StoredResponse τ β} (headers : List (String × String)) (ht : (calls t).key = some key)
    (hlease : db.running t = some lease) :
    Exclusive calls key ({ db with
      keys := db.keys.set key (row.completedWith e.statusCode headers e.body)
      stored := db.stored ++ [e] }.release t) where
  locked t' lease' ht' hlease' := by
    change Function.update db.running t none t' = some lease' at hlease'
    rw [h.nobody_released ht hlease t' ht'] at hlease'
    cases hlease'
  once t' _ ht' _ hr := by
    change (Function.update db.running t none t').isSome at hr
    rw [h.nobody_released ht hlease t' ht'] at hr
    cases hr
  settled e' he' hkey' := by
    refine ⟨?_, h.nobody_released ht hlease⟩
    rcases List.mem_append.1 he' with he' | he'
    · -- nothing was stored before: the handler would not run
      have hnone := (h.settled e' he' hkey').nobody t ht
      rw [hlease] at hnone
      cases hnone
    · rw [List.mem_singleton.1 he']
      exact ⟨_, Table.set_row_self .., rfl, rfl, rfl⟩

theorem KeyStep.exclusive (h : KeyStep sha256 calls t db db') (hX : Exclusive calls key db)
    (hT : InTime calls key db) : Exclusive calls key db' := by
  by_cases ht : (calls t).key = some key
  swap
  · exact hX.same (h.same_of_ne ht)
  have hkey_eq : ∀ {key'}, (calls t).key = some key' → key' = key := fun hkey' =>
    Option.some.inj (hkey'.symm.trans ht)
  cases h with
  | idle => exact hX
  | tick => exact hX.same ⟨rfl, fun _ _ => rfl, fun _ he _ => he, rfl⟩
  | insert granted hkey hidle habsent hhash hstatus hlocked hby =>
    obtain rfl := hkey_eq hkey
    refine Exclusive.granted granted (hX.not_stored_of_absent habsent) (fun t' ht' => ?_) hstatus
      hlocked
    by_contra hsome
    obtain ⟨lease, hlease⟩ := Option.ne_none_iff_exists'.1 hsome
    obtain ⟨row, hrow, -⟩ := hX.locked t' lease ht' hlease
    simp [habsent] at hrow
  | reclaim granted hkey hidle hrow hstatus hlocked hexpired hlease =>
    obtain rfl := hkey_eq hkey
    refine Exclusive.granted granted (hX.not_stored hrow hstatus) (fun t' ht' => ?_) rfl rfl
    by_contra hsome
    -- A handler that runs has the lock, which has expired: it has outrun it.
    obtain ⟨lease', hlease'⟩ := Option.ne_none_iff_exists'.1 hsome
    obtain ⟨row', hrow', -, hlocked'⟩ := hX.locked t' lease' ht' hlease'
    rw [hrow] at hrow'
    rw [← Option.some.inj hrow', hlocked, Option.some.injEq] at hlocked'
    exact absurd hexpired (not_lt.2 (hlocked' ▸ hT t' lease' ht' hlease'))
  | complete headers hkey hlease hrow he hcode =>
    obtain rfl := hkey_eq hkey
    exact hX.completed headers ht hlease
  | fail hkey hlease hrow hstatus =>
    obtain rfl := hkey_eq hkey
    exact Exclusive.of_nobody (hX.not_stored hrow hstatus) (hX.nobody_released ht hlease)
  | release hlease =>
    obtain ⟨row, hrow, hstatus, -⟩ := hX.locked t _ ht hlease
    exact Exclusive.of_nobody (hX.not_stored hrow hstatus) (hX.nobody_released ht hlease)

/-- Once a response is recorded, nothing happens to the key. -/
theorem KeyStep.same_of_settled (h : KeyStep sha256 calls t db db') {statusCode : ℕ}
    {body : Option β} (hS : Settled calls key statusCode body db) : SameKey calls key db db' := by
  by_cases ht : (calls t).key = some key
  swap
  · exact h.same_of_ne ht
  have hkey_eq : ∀ {key'}, (calls t).key = some key' → key' = key := fun hkey' =>
    Option.some.inj (hkey'.symm.trans ht)
  obtain ⟨row, hrow, hstatus, -⟩ := hS.recorded
  have hnobody := hS.nobody t ht
  cases h with
  | idle => exact ⟨rfl, fun _ _ => rfl, fun _ he _ => he, rfl⟩
  | tick => exact ⟨rfl, fun _ _ => rfl, fun _ he _ => he, rfl⟩
  | insert granted hkey _ habsent =>
    rw [hkey_eq hkey, hrow] at habsent
    cases habsent
  | reclaim granted hkey _ hrow' hstatus' =>
    rw [hkey_eq hkey, hrow] at hrow'
    rw [← Option.some.inj hrow', hstatus] at hstatus'
    cases hstatus'
  | complete headers hkey hlease =>
    rw [hnobody] at hlease
    cases hlease
  | fail hkey hlease =>
    rw [hnobody] at hlease
    cases hlease
  | release hlease =>
    rw [hnobody] at hlease
    cases hlease

end Steps

/-! ## Later requests -/

section Later

variable [DecidableEq τ] (sha256 : String → String) (calls : τ → HttpCall β) (key : String)

/-- A response is recorded, under the hash of the call `t`. -/
structure Recorded (t : τ) (statusCode : ℕ) (body : Option β) (db : IdempotencyDb τ β) : Prop where
  settled : Settled calls key statusCode body db
  hash : ∀ row, db.keys.row key = some row → row.requestHash = hashOf sha256 calls t

variable {sha256 calls key} {t : τ} {db : IdempotencyDb τ β} {statusCode : ℕ} {body : Option β}

theorem stable_recorded :
    Stable (KeyRely sha256 calls t) (Recorded sha256 calls key t statusCode body) := by
  rintro db db' h ⟨t', -, hs⟩
  have hsame := hs.same_of_settled h.settled
  refine ⟨h.settled.same hsame, fun row hrow => h.hash row ?_⟩
  rwa [hsame.row] at hrow

/-- It conflicts with the row that is there. -/
theorem insert_recorded {fate : Fate} {lease : Lease τ} {path method hash : String}
    {userId : Option String} {lockedUntil : Time}
    (h : Recorded sha256 calls key t statusCode body db) :
    ∃ r db', acquiring fate t lease (insertKey t key path method hash userId lockedUntil) db
        = some (r, db')
      ∧ post (fun inserted db => inserted = false ∧ Recorded sha256 calls key t statusCode body db)
        (fun _ _ => fate ≠ .answered) r db' := by
  obtain ⟨row, hrow, -⟩ := h.settled.recorded
  rcases fate with _ | _ | _
  · refine ⟨.ok false, db, ?_, rfl, h⟩
    simp [acquiring, autocommit, insertKey, Sync.bind_apply, hrow]
  · exact ⟨.error .database, db, rfl, by simp⟩
  · refine ⟨.error .database, db, ?_, by simp⟩
    simp [acquiring, autocommit, insertKey, Sync.bind_apply, hrow]

omit [DecidableEq τ] in
theorem select_recorded {fate : Fate} (h : Recorded sha256 calls key t statusCode body db) :
    ∃ r db', autocommit .database fate (selectKey key) db = some (r, db')
      ∧ post (fun found _ => ∃ row, found = some row ∧ row.status = .completed
          ∧ row.responseStatusCode = some statusCode ∧ row.responseBody = body
          ∧ row.requestHash = hashOf sha256 calls t)
        (fun _ _ => fate ≠ .answered) r db' := by
  obtain ⟨row, hrow, hstatus, hcode, hbody⟩ := h.settled.recorded
  rcases fate with _ | _ | _
  · refine ⟨.ok (some row), db, ?_, row, rfl, hstatus, hcode, hbody, h.hash row hrow⟩
    simp [autocommit, selectKey, hrow]
  · exact ⟨.error .database, db, rfl, by simp⟩
  · exact ⟨.error .database, db, rfl, by simp⟩

theorem ends_acquireOnce {env : RequestEnv β} {path method : String} {userId : Option String}
    {again : Async (IdempotencyDb τ β) IdempotencyError (AcquireResult β)} (hcode : 0 < statusCode)
    (h : Recorded sha256 calls key t statusCode body db) :
    Ends (KeyRely sha256 calls t)
      (post (fun result _ => ∃ record, result = .completed record
        ∧ replay record = ⟨statusCode, true, .json body⟩)
        fun _ _ => ¬ (env.onInsert 0 = .answered ∧ env.onSelect 0 = .answered))
      (acquireOnce env t key path method (hashOf sha256 calls t) userId 0 again) 3 db := by
  have hR : Stable (KeyRely sha256 calls t) (Recorded sha256 calls key t statusCode body) :=
    stable_recorded
  have hread : ∀ db, Recorded sha256 calls key t statusCode body db →
      ∃ r db', (Sync.read (fun db => db.now + lockDurationMs) : Sync _ IdempotencyError Time) db
        = some (r, db') ∧ post (fun _ => Recorded sha256 calls key t statusCode body)
          (fun _ _ => False) r db' := fun db h => ⟨_, db, rfl, h⟩
  unfold acquireOnce
  refine Ends.await_bind hR h hread (fun lockedUntil db h => ?_) (fun _ => Stable.const _)
    fun _ _ => False.elim
  refine Ends.await_bind hR h (fun db h => insert_recorded h) (fun inserted db h => ?_)
    (fun _ => Stable.const _) fun _ _ hfate hans => hfate hans.1
  obtain ⟨rfl, h⟩ := h
  refine Ends.await_bind hR h (fun db h => select_recorded h) (fun found db h => ?_)
    (fun _ => Stable.const _) fun _ _ hfate hans => hfate hans.2
  obtain ⟨row, rfl, hstatus, hrcode, hbody, hhash⟩ := h
  simp only [hhash, hstatus, ne_eq, not_true_eq_false, if_false, if_true]
  refine Ends.pure (Stable.const _) ⟨_, rfl, ?_⟩
  obtain ⟨n, rfl⟩ := Nat.exists_eq_succ_of_ne_zero hcode.ne'
  simp [replay, IdempotencyRow.record, hrcode, hbody]

/-- A request that comes when a response is recorded is answered with it after three segments. -/
theorem ends_httpCall (hcode : 0 < statusCode) (hkey : (calls t).key = some key)
    (h : Recorded sha256 calls key t statusCode body db) :
    Ends (KeyRely sha256 calls t) (fun r _ => (calls t).AnsweredWith statusCode body r)
      ((calls t).program sha256 t) 3 db := by
  rcases hcall : calls t with ⟨env, retries, req⟩ | ms
  swap
  · simp [hcall, HttpCall.key] at hkey
  simp only [hcall, HttpCall.key, Option.filter_eq_some_iff, decide_eq_true_eq] at hkey
  have hhash : sha256 req.canonicalBody = hashOf sha256 calls t := by
    simp [hashOf, hcall, HttpCall.canonicalBody]
  simp only [HttpCall.program, idempotencyMiddleware, hkey.1, hhash, if_neg (not_lt.2 hkey.2)]
  refine Ends.bind (?_ : Ends _ (post (fun result _ => ∃ record, result = .completed record
      ∧ replay record = ⟨statusCode, true, .json body⟩)
      fun _ _ => ¬ (env.onInsert 0 = .answered ∧ env.onSelect 0 = .answered)) _ 3 db)
    (fun result db h => (?_ : Ends _ _ _ 0 db)) fun e _ h => ?_
  · cases retries <;> exact ends_acquireOnce hcode h
  · obtain ⟨record, rfl, hreplay⟩ := h
    exact Ends.pure (Stable.const _) (.inl (by rw [hreplay]))
  · cases e
    exact .inr ⟨rfl, h⟩

end Later

/-! ## Runs -/

section Runs

variable [DecidableEq τ]

/-- Any requests, under one key with one body, and the clock, interleaved statement by statement in
any way, as long as no handler under the key outruns its lock. At most one handler runs under the
key. Once a response has been stored, the table keeps it, no handler begins any more, and every
request that comes later is answered with it, in three segments. -/
theorem one_handler_then_replays (sha256 : String → String) (calls : τ → HttpCall β)
    (key body : String)
    (hbody : ∀ t, (calls t).key = some key → (calls t).canonicalBody = body) {is : List τ}
    {c : Config τ (IdempotencyDb τ β) IdempotencyError (Option (HttpResponse β))}
    (hrun : (httpCalls sha256 calls).runSchedule is = some c)
    (htime : ∀ js c₁, js <+: is → (httpCalls sha256 calls).runSchedule js = some c₁ →
      InTime calls key c₁.world) :
    (∀ t t', (calls t).key = some key → (calls t').key = some key → (c.world.running t).isSome →
      (c.world.running t').isSome → t = t')
    ∧ ∀ e ∈ c.world.stored, (calls e.request).key = some key →
      ∀ is' c', c.runSchedule is' = some c' →
        IsRecorded key e.statusCode e.body c'.world
        ∧ runsUnder calls key c'.world = runsUnder calls key c.world
        ∧ ∀ t, (calls t).key = some key → c.thread t = (calls t).program sha256 t →
          (∃ r, (c'.thread t).result = some r ∧ (calls t).AnsweredWith e.statusCode e.body r)
            ∨ is'.count t < 3 ∧ (c'.step t).isSome := by
  have hreach := Config.reach_of_runSchedule is hrun
  have hI := keyInv_of_reach hreach
  have hX : Exclusive calls key c.world := by
    refine Safe.invariant_of_run keyRely_of_ne (fun t db db' hX hT hs => hs.exclusive hX hT) is
      safe_httpCalls hrun htime ?_
    exact Exclusive.of_nobody (fun e he => by cases he) fun t _ => rfl
  refine ⟨hX.once, fun e he hkey is' c' hrun' => ?_⟩
  have hsafe : ∀ t, Safe (KeyRely sha256 calls t) (KeyStep sha256 calls t)
      (Responded sha256 calls t) (c.thread t) c.world :=
    (Safe.reach keyRely_of_ne safe_httpCalls hreach).2
  have hS := hX.settled e he hkey
  have hlater : Settled calls key e.statusCode e.body c'.world
      ∧ runsUnder calls key c'.world = runsUnder calls key c.world := by
    refine Safe.invariant keyRely_of_ne hsafe (Config.reach_of_runSchedule is' hrun')
      (P := fun db => Settled calls key e.statusCode e.body db
        ∧ runsUnder calls key db = runsUnder calls key c.world) (fun t db db' h hs => ?_) ⟨hS, rfl⟩
    have hsame := hs.same_of_settled h.1
    exact ⟨h.1.same hsame, hsame.runs.trans h.2⟩
  refine ⟨hlater.1.recorded, hlater.2, fun t ht hthread => ?_⟩
  have hrec : Recorded sha256 calls key t e.statusCode e.body c.world := by
    refine ⟨hS, fun row hrow => ?_⟩
    obtain ⟨hk, hh⟩ := hI.row key row hrow
    rw [← hh, hashOf, hashOf, hbody _ hk, hbody t ht]
  have hends := ends_httpCall (hI.stored e he).1 ht hrec
  rw [← hthread] at hends
  exact Ends.runSchedule keyRely_of_ne is' hsafe hends hrun'

end Runs

/-- The first handler crashes, the second reclaims the key when its lock has expired, and the third
comes later. -/
def sampleRetries (t : Fin 4) : HttpCall String :=
  if t = 3 then .tick 30001
  else .request ⟨fun _ => .answered, fun _ => .answered, .answered, .answered,
      if t = 0 then .crashed else .finished 201 (some "evt-1")⟩
    0 ⟨some (.one "key-1"), none, "POST", "/api", "/events", some "\x7b\x7d"⟩

def sampleSchedule : List (Fin 4) := [0, 0, 0, 3, 1, 1, 1, 1, 1, 1]

theorem inTime_sampleRetries (js : List (Fin 4))
    (c : Config (Fin 4) (IdempotencyDb (Fin 4) String) IdempotencyError
      (Option (HttpResponse String)))
    (hjs : js <+: sampleSchedule)
    (hrun : (httpCalls sampleSha256 sampleRetries).runSchedule js = some c) :
    InTime sampleRetries "key-1" c.world := by
  have hall : ∀ js ∈ sampleSchedule.inits,
      ∀ c ∈ (httpCalls sampleSha256 sampleRetries).runSchedule js, ∀ t, ∀ lease ∈ c.world.running t,
        c.world.now ≤ lease.lockedUntil := by decide
  intro t lease _ hlease
  exact hall js ((List.mem_inits js sampleSchedule).2 hjs) c hrun t lease hlease

/-- The third request is answered with what the second one's handler answered. -/
theorem one_handler_then_replays_sample :
    ∃ c c', (httpCalls sampleSha256 sampleRetries).runSchedule sampleSchedule = some c
      ∧ c.runSchedule [2, 2, 2] = some c'
      ∧ (∃ e ∈ c.world.stored, (sampleRetries e.request).key = some "key-1"
        ∧ IsRecorded "key-1" e.statusCode e.body c'.world
        ∧ ∃ r, (c'.thread 2).result = some r
          ∧ (sampleRetries 2).AnsweredWith e.statusCode e.body r)
      ∧ runsUnder sampleRetries "key-1" c'.world = [0, 1]
      ∧ (c'.thread 2).result = some (.ok (some ⟨201, true, .json (some "evt-1")⟩)) := by
  have hsome : ((httpCalls sampleSha256 sampleRetries).runSchedule sampleSchedule).isSome := by
    decide
  have hrun := Option.eq_some_of_isSome hsome
  have hsome' : ((((httpCalls sampleSha256 sampleRetries).runSchedule sampleSchedule).get
    hsome).runSchedule [2, 2, 2]).isSome := rfl
  have hrun' := Option.eq_some_of_isSome hsome'
  obtain ⟨-, h⟩ := one_handler_then_replays sampleSha256 sampleRetries "key-1" "\x7b\x7d"
    (by decide)
    hrun inTime_sampleRetries
  have he : (⟨1, 0, 0, 201, some "evt-1"⟩ : StoredResponse (Fin 4) String)
      ∈ (((httpCalls sampleSha256 sampleRetries).runSchedule sampleSchedule).get
        hsome).world.stored :=
    List.mem_singleton_self _
  obtain ⟨hrec, hruns, hanswer⟩ := h _ he (by decide) [2, 2, 2] _ hrun'
  refine ⟨_, _, hrun, hrun', ⟨_, he, by decide, hrec, ?_⟩, hruns.trans rfl, rfl⟩
  exact (hanswer 2 (by decide) rfl).resolve_right (by simp)

end LaunchPad
