import LaunchPad.Idempotency

/-!
# What a request does to its key

`KeyStep` says once what a segment of a request may do to the table. Every segment of the middleware
is one (`safe_httpCall`), whatever the other requests do, so a run is a run of `KeyStep`s.

A row has the hash of the request that inserted it, so a response is replayed to requests with that
hash only; and a request that acquires a key has the hash of the row it found.
-/

namespace LaunchPad

open Interleave Rows

variable {τ β : Type}

section Invariant

variable (sha256 : String → String) (calls : τ → HttpCall β)

def hashOf (t : τ) : String := sha256 (calls t).canonicalBody

/-- The request `u` has the key and the hash. -/
def Matches (key hash : String) (u : τ) : Prop :=
  (calls u).key = some key ∧ hashOf sha256 calls u = hash

/-- What holds after every run. -/
structure KeyInv (db : IdempotencyDb τ β) : Prop where
  row : ∀ key row, db.keys.row key = some row →
    Matches sha256 calls key row.requestHash row.insertedBy
  lease : ∀ t lease, db.running t = some lease → ∃ key, (calls t).key = some key
    ∧ Matches sha256 calls key (hashOf sha256 calls t) lease.row
  stored : ∀ e ∈ db.stored, 0 < e.statusCode ∧ ∃ key, (calls e.request).key = some key
    ∧ (calls e.row).key = some key
    ∧ Matches sha256 calls key (hashOf sha256 calls e.request) e.acquired
  completed : ∀ key row, db.keys.row key = some row → row.status = .completed →
    ∃ e ∈ db.stored, (calls e.request).key = some key ∧ e.row = row.insertedBy
      ∧ row.responseStatusCode = some e.statusCode ∧ row.responseBody = e.body

variable {sha256 calls} {db : IdempotencyDb τ β} {key : String}

theorem KeyInv.set (hI : KeyInv sha256 calls db) {row : IdempotencyRow τ β}
    (hm : Matches sha256 calls key row.requestHash row.insertedBy)
    (hc : row.status = .completed → ∃ e ∈ db.stored, (calls e.request).key = some key
      ∧ e.row = row.insertedBy ∧ row.responseStatusCode = some e.statusCode
      ∧ row.responseBody = e.body) :
    KeyInv sha256 calls { db with keys := db.keys.set key row } where
  row key' row' h := by
    rw [Table.set_row] at h
    split_ifs at h with hk
    · rw [hk, ← Option.some.inj h]
      exact hm
    · exact hI.row key' row' h
  lease := hI.lease
  stored := hI.stored
  completed key' row' h hs := by
    rw [Table.set_row] at h
    split_ifs at h with hk
    · rw [← Option.some.inj h] at hs ⊢
      rw [hk]
      exact hc hs
    · exact hI.completed key' row' h hs

theorem KeyInv.erase (hI : KeyInv sha256 calls db) (key : String) :
    KeyInv sha256 calls { db with keys := db.keys.erase key } where
  row key' row' h := by
    rw [Table.erase_row] at h
    split_ifs at h
    exact hI.row key' row' h
  lease := hI.lease
  stored := hI.stored
  completed key' row' h hs := by
    rw [Table.erase_row] at h
    split_ifs at h
    exact hI.completed key' row' h hs

theorem KeyInv.store (hI : KeyInv sha256 calls db) {e : StoredResponse τ β}
    (hcode : 0 < e.statusCode) (hrequest : (calls e.request).key = some key)
    (hrow : (calls e.row).key = some key)
    (hm : Matches sha256 calls key (hashOf sha256 calls e.request) e.acquired) :
    KeyInv sha256 calls { db with stored := db.stored ++ [e] } where
  row := hI.row
  lease := hI.lease
  stored e' he' := by
    rcases List.mem_append.1 he' with he' | he'
    · exact hI.stored e' he'
    · rw [List.mem_singleton.1 he']
      exact ⟨hcode, key, hrequest, hrow, hm⟩
  completed key' row' h hs := by
    obtain ⟨e', he', h'⟩ := hI.completed key' row' h hs
    exact ⟨e', by simp [he'], h'⟩

end Invariant

/-! ## The steps -/

/-- The row after its lock was reclaimed. -/
def IdempotencyRow.relocked (row : IdempotencyRow τ β) (lockedUntil : Time) : IdempotencyRow τ β :=
  { row with status := .inProgress, lockedUntil := some lockedUntil }

/-- The row after a response was stored in it. -/
def IdempotencyRow.completedWith (row : IdempotencyRow τ β) (statusCode : ℕ)
    (headers : List (String × String)) (body : Option β) : IdempotencyRow τ β :=
  { row with
    status := .completed
    responseStatusCode := some statusCode
    responseHeaders := some headers
    responseBody := body
    lockedUntil := none }

/-- The headers that are stored with every response. -/
def jsonHeaders : List (String × String) := [("content-type", "application/json")]

/-- The statement that follows the handler takes effect, and there is a row for it: any row for
`complete`, one that is in progress for `fail`. -/
def HttpCall.Persists (call : HttpCall β) (key : String) (db : IdempotencyDb τ β) : Prop :=
  call.onPersist ≠ .failed ∧ ∃ statusCode body row, call.outcome = .finished statusCode body
    ∧ db.keys.row key = some row
    ∧ (200 ≤ statusCode ∧ statusCode < 500 ∨ row.status = .inProgress)

variable [DecidableEq τ]

/-- A request that is told so has acquired the key. -/
def IdempotencyDb.grantIf (db : IdempotencyDb τ β) (granted : Bool) (t : τ) (lease : Lease τ) :
    IdempotencyDb τ β :=
  if granted then db.grant t lease else db

/-- What a segment of the call `t` may do. -/
inductive KeyStep (sha256 : String → String) (calls : τ → HttpCall β) (t : τ) :
    IdempotencyDb τ β → IdempotencyDb τ β → Prop
  | idle (db : IdempotencyDb τ β) : KeyStep sha256 calls t db db
  | tick (db : IdempotencyDb τ β) (ms : ℕ) :
      KeyStep sha256 calls t db { db with now := db.now + ms }
  | insert {db : IdempotencyDb τ β} {key : String} {row : IdempotencyRow τ β} {lockedUntil : Time}
      (granted : Bool) (hkey : (calls t).key = some key) (hidle : db.running t = none)
      (habsent : db.keys.row key = none) (hhash : row.requestHash = hashOf sha256 calls t)
      (hstatus : row.status = .inProgress) (hlocked : row.lockedUntil = some lockedUntil)
      (hby : row.insertedBy = t) :
      KeyStep sha256 calls t db
        ({ db with keys := db.keys.set key row }.grantIf granted t ⟨lockedUntil, t⟩)
  | reclaim {db : IdempotencyDb τ β} {key : String} {row : IdempotencyRow τ β} {expired : Time}
      {lease : Lease τ} (granted : Bool) (hkey : (calls t).key = some key)
      (hidle : db.running t = none) (hrow : db.keys.row key = some row)
      (hstatus : row.status = .inProgress) (hlocked : row.lockedUntil = some expired)
      (hexpired : expired < db.now)
      (hlease : Matches sha256 calls key (hashOf sha256 calls t) lease.row) :
      KeyStep sha256 calls t db
        ({ db with keys := db.keys.set key (row.relocked lease.lockedUntil) }.grantIf granted t lease)
  | complete {db : IdempotencyDb τ β} {key : String} {row : IdempotencyRow τ β} {lease : Lease τ}
      {e : StoredResponse τ β} (headers : List (String × String)) (hkey : (calls t).key = some key)
      (hlease : db.running t = some lease) (hrow : db.keys.row key = some row)
      (he : e = ⟨t, row.insertedBy, lease.row, e.statusCode, e.body⟩)
      (hcode : 200 ≤ e.statusCode ∧ e.statusCode < 500) (hheaders : headers = jsonHeaders)
      (houtcome : (calls t).outcome = .finished e.statusCode e.body)
      (hfate : (calls t).onPersist ≠ .failed) :
      KeyStep sha256 calls t db ({ db with
        keys := db.keys.set key (row.completedWith e.statusCode headers e.body)
        stored := db.stored ++ [e] }.release t)
  | fail {db : IdempotencyDb τ β} {key : String} {row : IdempotencyRow τ β} {lease : Lease τ}
      {statusCode : ℕ} {body : Option β} (hkey : (calls t).key = some key)
      (hlease : db.running t = some lease) (hrow : db.keys.row key = some row)
      (hstatus : row.status = .inProgress)
      (houtcome : (calls t).outcome = .finished statusCode body)
      (hcode : ¬ (200 ≤ statusCode ∧ statusCode < 500)) (hfate : (calls t).onPersist ≠ .failed) :
      KeyStep sha256 calls t db ({ db with keys := db.keys.erase key }.release t)
  | release {db : IdempotencyDb τ β} {key : String} {lease : Lease τ}
      (hlease : db.running t = some lease) (hkey : (calls t).key = some key)
      (hidle : ¬ (calls t).Persists key db) : KeyStep sha256 calls t db (db.release t)

def KeyRely (sha256 : String → String) (calls : τ → HttpCall β) (t : τ)
    (db db' : IdempotencyDb τ β) : Prop := ∃ t', t ≠ t' ∧ KeyStep sha256 calls t' db db'

section Steps

variable {sha256 : String → String} {calls : τ → HttpCall β} {t : τ} {db db' : IdempotencyDb τ β}
  {key : String}

@[simp] theorem grantIf_keys (granted : Bool) (lease : Lease τ) :
    (db.grantIf granted t lease).keys = db.keys := by cases granted <;> rfl

@[simp] theorem grantIf_now (granted : Bool) (lease : Lease τ) :
    (db.grantIf granted t lease).now = db.now := by cases granted <;> rfl

@[simp] theorem grantIf_stored (granted : Bool) (lease : Lease τ) :
    (db.grantIf granted t lease).stored = db.stored := by cases granted <;> rfl

theorem grantIf_running (granted : Bool) (lease : Lease τ) (t' : τ) :
    (db.grantIf granted t lease).running t'
      = if granted = true ∧ t' = t then some lease else db.running t' := by
  cases granted
  · simp [IdempotencyDb.grantIf]
  · simp [IdempotencyDb.grantIf, IdempotencyDb.grant, Function.update_apply]

@[simp] theorem release_keys : (db.release t).keys = db.keys := rfl

@[simp] theorem release_now : (db.release t).now = db.now := rfl

@[simp] theorem release_stored : (db.release t).stored = db.stored := rfl

theorem release_running (t' : τ) :
    (db.release t).running t' = if t' = t then none else db.running t' := by
  simp [IdempotencyDb.release, Function.update_apply]

theorem KeyStep.running_other (h : KeyStep sha256 calls t db db') {t' : τ} (ht : t' ≠ t) :
    db'.running t' = db.running t' := by
  cases h with
  | idle => rfl
  | tick => rfl
  | insert => simp [grantIf_running, ht]
  | reclaim => simp [grantIf_running, ht]
  | complete => simp [release_running, ht]
  | fail => simp [release_running, ht]
  | release => simp [release_running, ht]

theorem KeyStep.mem_stored (h : KeyStep sha256 calls t db db') {e : StoredResponse τ β}
    (he : e ∈ db.stored) : e ∈ db'.stored := by
  cases h with
  | complete => simp [he]
  | _ => simpa using he

theorem KeyInv.grantIf (hI : KeyInv sha256 calls db) {lease : Lease τ} (granted : Bool)
    (hkey : (calls t).key = some key)
    (hm : Matches sha256 calls key (hashOf sha256 calls t) lease.row) :
    KeyInv sha256 calls (db.grantIf granted t lease) where
  row key' row' h := hI.row key' row' (by simpa using h)
  lease t' lease' h := by
    rw [grantIf_running] at h
    split_ifs at h with ht
    · rw [ht.2, ← Option.some.inj h]
      exact ⟨key, hkey, hm⟩
    · exact hI.lease t' lease' h
  stored e he := hI.stored e (by simpa using he)
  completed key' row' h hs := by simpa using hI.completed key' row' (by simpa using h) hs

theorem KeyInv.release (hI : KeyInv sha256 calls db) (t : τ) :
    KeyInv sha256 calls (db.release t) where
  row := hI.row
  lease t' lease' h := by
    rw [release_running] at h
    split_ifs at h
    exact hI.lease t' lease' h
  stored := hI.stored
  completed := hI.completed

theorem KeyStep.inv (h : KeyStep sha256 calls t db db') (hI : KeyInv sha256 calls db) :
    KeyInv sha256 calls db' := by
  cases h with
  | idle => exact hI
  | tick => exact ⟨hI.row, hI.lease, hI.stored, hI.completed⟩
  | insert granted hkey hidle habsent hhash hstatus hlocked hby =>
    refine (hI.set ⟨by rw [hby]; exact hkey, by rw [hby, hhash]⟩ fun hs => ?_).grantIf granted hkey
      ⟨hkey, rfl⟩
    simp [hstatus] at hs
  | @reclaim key row _ lease granted hkey hidle hrow hstatus hlocked hexpired hlease =>
    have hm : Matches sha256 calls key (row.relocked lease.lockedUntil).requestHash
        (row.relocked lease.lockedUntil).insertedBy := hI.row key row hrow
    refine (hI.set hm fun hs => ?_).grantIf granted hkey hlease
    simp [IdempotencyRow.relocked] at hs
  | @complete key row lease e headers hkey hlease hrow he hcode hheaders houtcome hfate =>
    obtain ⟨key', hkey', hm⟩ := hI.lease t lease hlease
    rw [hkey, Option.some.injEq] at hkey'
    have hrequest : e.request = t := by rw [he]
    have hby : e.row = row.insertedBy := by rw [he]
    have hacquired : e.acquired = lease.row := by rw [he]
    have hm' : Matches sha256 calls key (row.completedWith e.statusCode headers e.body).requestHash
        (row.completedWith e.statusCode headers e.body).insertedBy := hI.row key row hrow
    have hstore : KeyInv sha256 calls { db with stored := db.stored ++ [e] } := by
      refine hI.store (by omega) (hrequest ▸ hkey) ?_ ?_
      · rw [hby]
        exact (hI.row _ _ hrow).1
      · rw [hrequest, hacquired, hkey']
        exact hm
    refine (hstore.set hm' fun _ => ?_).release t
    exact ⟨e, by simp, hrequest ▸ hkey, hby, rfl, rfl⟩
  | fail => exact (hI.erase _).release t
  | release => exact hI.release t

/-! ## What a request knows -/

variable (sha256 calls)

/-- It has not acquired its key. -/
structure Unacquired (t : τ) (db : IdempotencyDb τ β) : Prop where
  inv : KeyInv sha256 calls db
  running : db.running t = none

/-- Its handler runs. -/
structure Handling (t : τ) (db : IdempotencyDb τ β) : Prop where
  inv : KeyInv sha256 calls db
  running : (db.running t).isSome

/-- The response that is replayed to it was stored under its key, in a row with its hash. -/
def Replays (t : τ) (r : HttpResponse β) (db : IdempotencyDb τ β) : Prop :=
  ∃ e ∈ db.stored, r = ⟨e.statusCode, true, .json e.body⟩
    ∧ (calls e.request).key = (calls t).key ∧ (calls e.row).key = (calls t).key
    ∧ hashOf sha256 calls e.row = hashOf sha256 calls t
    ∧ hashOf sha256 calls e.acquired = hashOf sha256 calls e.request

/-- It has read the row of its key. -/
structure Found (t : τ) (key : String) (row : IdempotencyRow τ β) (db : IdempotencyDb τ β) :
    Prop where
  idle : Unacquired sha256 calls t db
  inserted : Matches sha256 calls key row.requestHash row.insertedBy
  completed : row.status = .completed → row.requestHash = hashOf sha256 calls t →
    Replays sha256 calls t (replay (row.record key)) db

/-- What `acquire` answers. -/
def Acquired (t : τ) : AcquireResult β → IdempotencyDb τ β → Prop
  | .acquired, db => Handling sha256 calls t db
  | .completed record, db => Replays sha256 calls t (replay record) db
  | _, _ => True

/-- A request with its key has another hash. -/
def Mismatched (t : τ) : Prop :=
  ∃ u, (calls u).key = (calls t).key ∧ hashOf sha256 calls u ≠ hashOf sha256 calls t

/-- What `acquire` answers, with the reason for a mismatch. -/
def Acquisition (t : τ) (r : AcquireResult β) (db : IdempotencyDb τ β) : Prop :=
  Acquired sha256 calls t r db ∧ (r = .mismatch → Mismatched sha256 calls t)

variable {sha256 calls}

theorem stable_unacquired : Stable (KeyRely sha256 calls t) (Unacquired sha256 calls t) := by
  rintro db db' h ⟨t', ht, hs⟩
  exact ⟨hs.inv h.inv, (hs.running_other ht).trans h.running⟩

theorem stable_handling : Stable (KeyRely sha256 calls t) (Handling sha256 calls t) := by
  rintro db db' h ⟨t', ht, hs⟩
  exact ⟨hs.inv h.inv, by rw [hs.running_other ht]; exact h.running⟩

theorem stable_replays (r : HttpResponse β) :
    Stable (KeyRely sha256 calls t) (Replays sha256 calls t r) := by
  rintro db db' ⟨e, he, h⟩ ⟨t', -, hs⟩
  exact ⟨e, hs.mem_stored he, h⟩

theorem stable_found (row : IdempotencyRow τ β) :
    Stable (KeyRely sha256 calls t) (Found sha256 calls t key row) :=
  fun db db' h hR => ⟨stable_unacquired db db' h.idle hR, h.inserted, fun hs hh =>
    stable_replays _ db db' (h.completed hs hh) hR⟩

theorem stable_acquisition (r : AcquireResult β) :
    Stable (KeyRely sha256 calls t) (Acquisition sha256 calls t r) := by
  refine Stable.and ?_ (Stable.const _)
  cases r with
  | acquired => exact stable_handling
  | completed record => exact stable_replays (replay record)
  | inProgress => exact Stable.const True
  | mismatch => exact Stable.const True

/-! ## The statements -/

/-- A statement that acquires the key is not answered, or grants it where it says so. -/
theorem wp_acquiring {fate : Fate} {lease : Lease τ} {b : Bool}
    {s : Sync (IdempotencyDb τ β) IdempotencyError Bool}
    {Q : Except IdempotencyError Bool → IdempotencyDb τ β → Prop}
    (hs : s db = some (.ok b, db')) (hfail : Q (.error .database) db)
    (hlost : Q (.error .database) db') (hok : Q (.ok b) (db'.grantIf b t lease)) :
    (acquiring fate t lease s).wp Q db := by
  unfold acquiring
  rw [Sync.wp_bind]
  refine wp_autocommit ((Sync.wp_of_apply hs).2 ⟨?_, hlost⟩) hfail
  rw [post_ok]
  cases b <;> simpa [IdempotencyDb.grantIf] using hok

theorem idempotency_insert {fate : Fate} {path method : String} {userId : Option String}
    {lockedUntil : Time} (hkey : (calls t).key = some key) :
    Within (KeyStep sha256 calls t) (Unacquired sha256 calls t)
      (acquiring fate t ⟨lockedUntil, t⟩
        (insertKey t key path method (hashOf sha256 calls t) userId lockedUntil))
      (post (fun inserted db => if inserted then Handling sha256 calls t db
        else Unacquired sha256 calls t db) fun _ => Unacquired sha256 calls t) := by
  intro db h
  rcases hrow : db.keys.row key with _ | row
  · let row : IdempotencyRow τ β := ⟨truthy userId, path, method,
      hashOf sha256 calls t, .inProgress,
      none, none, none, db.now, some lockedUntil, t⟩
    have hs : insertKey t key path method (hashOf sha256 calls t) userId lockedUntil db
        = some (.ok true, { db with keys := db.keys.set key row }) := by
      unfold insertKey
      rw [hrow]
    have hstep : ∀ granted, KeyStep sha256 calls t db
        ({ db with keys := db.keys.set key row }.grantIf granted t ⟨lockedUntil, t⟩) :=
      fun granted => .insert granted hkey h.running hrow rfl rfl rfl rfl
    refine wp_acquiring hs ⟨.idle db, h⟩ ⟨hstep false, (hstep false).inv h.inv, h.running⟩
      ⟨hstep true, (hstep true).inv h.inv, ?_⟩
    simp [grantIf_running]
  · have hs : insertKey t key path method (hashOf sha256 calls t) userId lockedUntil db
        = some (.ok false, db) := by
      unfold insertKey
      rw [hrow]
    exact wp_acquiring hs ⟨.idle db, h⟩ ⟨.idle db, h⟩ ⟨.idle db, h⟩

theorem idempotency_select {fate : Fate} (hkey : (calls t).key = some key) :
    Within (KeyStep sha256 calls t) (Unacquired sha256 calls t)
      (autocommit .database fate (selectKey key))
      (post (fun found db => Unacquired sha256 calls t db
        ∧ ∀ row, found = some row → Found sha256 calls t key row db)
        fun _ => Unacquired sha256 calls t) := by
  refine Within.autocommit .idle (Within.read .idle fun db h => ⟨h, fun row hrow => ?_⟩)
    (fun _ h => h) fun _ _ h => h.1
  have hm := h.inv.row key row hrow
  refine ⟨h, hm, fun hs hh => ?_⟩
  obtain ⟨e, he, hrequest, hby, hcode, hbody⟩ := h.inv.completed key row hrow hs
  obtain ⟨hpos, key', hkey', -, hacquired⟩ := h.inv.stored e he
  refine ⟨e, he, ?_, hrequest.trans hkey.symm, ?_, ?_, hacquired.2⟩
  · obtain ⟨n, hn⟩ := Nat.exists_eq_succ_of_ne_zero hpos.ne'
    simp [replay, IdempotencyRow.record, hcode, hbody, hn]
  · rw [hby, hm.1, hkey]
  · rw [hby, hm.2, hh]

theorem idempotency_reclaim {fate : Fate} {lockedUntil : Time} {row : IdempotencyRow τ β}
    (hkey : (calls t).key = some key) (hhash : row.requestHash = hashOf sha256 calls t) :
    Within (KeyStep sha256 calls t) (Found sha256 calls t key row)
      (acquiring fate t ⟨lockedUntil, row.insertedBy⟩ (reclaimKey key lockedUntil))
      (post (fun acquired db => if acquired then Handling sha256 calls t db else True)
        fun _ _ => True) := by
  intro db h
  by_cases hcond : ∃ row' expired, db.keys.row key = some row' ∧ row'.status = .inProgress
      ∧ row'.lockedUntil = some expired ∧ expired < db.now
  · obtain ⟨row', expired, hrow, hstatus, hlocked, hexpired⟩ := hcond
    have hs : reclaimKey key lockedUntil db
        = some (.ok true, { db with keys := db.keys.set key (row'.relocked lockedUntil) }) := by
      simp [reclaimKey, hrow, hstatus, hlocked, hexpired, IdempotencyRow.relocked]
    have hm : Matches sha256 calls key (hashOf sha256 calls t)
      (Lease.mk lockedUntil row.insertedBy).row := hhash ▸ h.inserted
    have hstep := fun granted =>
      KeyStep.reclaim granted hkey h.idle.running hrow hstatus hlocked hexpired hm
    refine wp_acquiring hs ⟨.idle db, trivial⟩ ⟨hstep false, trivial⟩
      ⟨hstep true, (hstep true).inv h.idle.inv, ?_⟩
    simp [grantIf_running]
  · have hs : reclaimKey key lockedUntil db = some (.ok false, db) := by
      unfold reclaimKey
      rcases hrow : db.keys.row key with _ | row'
      · rfl
      · refine if_neg fun hc => hcond ?_
        simp only [Option.any_eq_true, decide_eq_true_eq] at hc
        obtain ⟨hstatus, expired, hlocked, hexpired⟩ := hc
        exact ⟨row', expired, hrow, hstatus, hlocked, hexpired⟩
    exact wp_acquiring hs ⟨.idle db, trivial⟩ ⟨.idle db, trivial⟩ ⟨.idle db, trivial⟩

/-- The end of a handler, after a statement that stays within the steps or does nothing. -/
theorem wp_persist {fate : Fate} {s : Sync (IdempotencyDb τ β) IdempotencyError Unit}
    {Q : Except IdempotencyError Unit → IdempotencyDb τ β → Prop} (hs : s db = some (.ok (), db'))
    (hfail : fate = .failed → Q (.ok ()) (db.release t))
    (hok : fate ≠ .failed → Q (.ok ()) (db'.release t)) : (persist fate t s).wp Q db := by
  unfold persist
  rw [Sync.wp_bind, Sync.wp_tryCatch]
  rcases fate with _ | _ | _
  · exact (Sync.wp_of_apply hs).2 (by simpa using hok)
  · exact (Sync.wp_of_apply rfl).2 (by simpa using hfail)
  · have hlost : autocommit IdempotencyError.database .answerLost s db
        = some (.error .database, db') := by simp [autocommit, hs]
    exact (Sync.wp_of_apply hlost).2 (by simpa using hok)

theorem Handling.release (h : Handling sha256 calls t db) (hkey : (calls t).key = some key)
    (hidle : ¬ (calls t).Persists key db) : KeyStep sha256 calls t db (db.release t) := by
  obtain ⟨lease, hlease⟩ := Option.isSome_iff_exists.1 h.running
  exact .release hlease hkey hidle

theorem idempotency_complete {statusCode : ℕ} {body : Option β} (hkey : (calls t).key = some key)
    (houtcome : (calls t).outcome = .finished statusCode body)
    (hcode : 200 ≤ statusCode ∧ statusCode < 500) :
    Within (KeyStep sha256 calls t) (Handling sha256 calls t)
      (persist (calls t).onPersist t (complete t key statusCode jsonHeaders body))
      (post (fun _ _ => True) fun _ _ => True) := by
  intro db h
  have hfailed : (calls t).onPersist = .failed → ¬ (calls t).Persists key db :=
    fun hf hp => hp.1 hf
  obtain ⟨lease, hlease⟩ := Option.isSome_iff_exists.1 h.running
  rcases hrow : db.keys.row key with _ | row
  · have hs : complete t key statusCode jsonHeaders body db = some (.ok (), db) := by
      unfold complete
      rw [hrow]
    have hidle : ¬ (calls t).Persists key db := by
      rintro ⟨-, _, _, row, -, hrow', -⟩
      rw [hrow] at hrow'
      cases hrow'
    exact wp_persist hs (fun _ => ⟨h.release hkey hidle, trivial⟩)
      fun _ => ⟨h.release hkey hidle, trivial⟩
  · let e : StoredResponse τ β := ⟨t, row.insertedBy, lease.row, statusCode, body⟩
    have hs : complete t key statusCode jsonHeaders body db = some (.ok (), { db with
        keys := db.keys.set key (row.completedWith e.statusCode jsonHeaders e.body)
        stored := db.stored ++ [e] }) := by
      simp [complete, hrow, hlease, e, IdempotencyRow.completedWith]
    exact wp_persist hs (fun hf => ⟨h.release hkey (hfailed hf), trivial⟩)
      fun hf => ⟨.complete jsonHeaders hkey hlease hrow rfl hcode rfl houtcome hf, trivial⟩

theorem idempotency_fail {statusCode : ℕ} {body : Option β} (hkey : (calls t).key = some key)
    (houtcome : (calls t).outcome = .finished statusCode body)
    (hcode : ¬ (200 ≤ statusCode ∧ statusCode < 500)) :
    Within (KeyStep sha256 calls t) (Handling sha256 calls t)
      (persist (calls t).onPersist t (fail key)) (post (fun _ _ => True) fun _ _ => True) := by
  intro db h
  obtain ⟨lease, hlease⟩ := Option.isSome_iff_exists.1 h.running
  by_cases hcond : (db.keys.row key).any (fun row => row.status = .inProgress)
  · have hs : fail key db = some (.ok (), { db with keys := db.keys.erase key }) := if_pos hcond
    simp only [Option.any_eq_true, decide_eq_true_eq] at hcond
    obtain ⟨row, hrow, hstatus⟩ := hcond
    exact wp_persist hs (fun hf => ⟨h.release hkey fun hp => hp.1 hf, trivial⟩)
      fun hf => ⟨.fail hkey hlease hrow hstatus houtcome hcode hf, trivial⟩
  · have hidle : ¬ (calls t).Persists key db := by
      rintro ⟨-, code, body', row, houtcome', hrow, hstatus⟩
      rw [houtcome, HandlerOutcome.finished.injEq] at houtcome'
      rcases hstatus with hstatus | hstatus
      · exact hcode (houtcome'.1 ▸ hstatus)
      · exact hcond (by simp [hrow, hstatus])
    exact wp_persist (if_neg hcond) (fun _ => ⟨h.release hkey hidle, trivial⟩)
      fun _ => ⟨h.release hkey hidle, trivial⟩

/-! ## The requests -/

theorem safe_acquireOnce {env : RequestEnv β} {path method : String} {userId : Option String}
    {n : ℕ} {again : Async (IdempotencyDb τ β) IdempotencyError (AcquireResult β)}
    (hkey : (calls t).key = some key)
    (hagain : ∀ db, Unacquired sha256 calls t db →
      Safe (KeyRely sha256 calls t) (KeyStep sha256 calls t)
      (post (Acquisition sha256 calls t) fun _ _ => True) again db)
    (h : Unacquired sha256 calls t db) :
    Safe (KeyRely sha256 calls t) (KeyStep sha256 calls t)
      (post (Acquisition sha256 calls t) fun _ _ => True)
      (acquireOnce env t key path method (hashOf sha256 calls t) userId n again) db := by
  have hidle : Stable (KeyRely sha256 calls t) (Unacquired sha256 calls t) := stable_unacquired
  unfold acquireOnce
  refine Safe.of_within hidle (fun _ => hidle) (fun _ => hidle)
    (Within.read .idle fun _ h => h) h (fun lockedUntil db h => ?_) fun _ _ _ => trivial
  refine Safe.of_within hidle ?_ (fun _ => hidle) (idempotency_insert hkey) h
    (fun inserted db h => ?_) fun _ _ _ => trivial
  · rintro (_ | _)
    · exact hidle
    · exact stable_handling
  rcases inserted with _ | _
  swap
  · exact Safe.pure (stable_acquisition .acquired) ⟨h, nofun⟩
  refine Safe.of_within hidle ?_ (fun _ => hidle) (idempotency_select hkey) h
    (fun found db h => ?_) fun _ _ _ => trivial
  · exact fun found => hidle.and fun db db' h hR row hrow => stable_found row db db' (h row hrow) hR
  rcases found with _ | row
  · exact hagain db h.1
  have hfound := h.2 row rfl
  simp only []
  split_ifs with hhash hcompleted
  · refine Safe.pure (stable_acquisition .mismatch) ⟨trivial, fun _ => ⟨row.insertedBy, ?_, ?_⟩⟩
    · rw [hfound.inserted.1, hkey]
    · rwa [hfound.inserted.2]
  · exact Safe.pure (stable_acquisition (.completed (row.record key)))
      ⟨hfound.completed hcompleted (not_not.1 hhash), nofun⟩
  · have hrow : Stable (KeyRely sha256 calls t) (Found sha256 calls t key row) := stable_found row
    refine Safe.of_within hrow (fun _ => hrow) (fun _ => hrow)
      (Within.read .idle fun _ h => h) hfound (fun expired db h => ?_) fun _ _ _ => trivial
    split_ifs
    · refine Safe.of_within hrow ?_ (fun _ => Stable.const True)
        (idempotency_reclaim hkey (not_not.1 hhash)) h (fun acquired db h => ?_)
          fun _ _ _ => trivial
      · rintro (_ | _)
        · exact Stable.const True
        · exact stable_handling
      rcases acquired with _ | _
      · exact Safe.pure (stable_acquisition .inProgress) ⟨trivial, nofun⟩
      · exact Safe.pure (stable_acquisition .acquired) ⟨h, nofun⟩
    · exact Safe.pure (stable_acquisition .inProgress) ⟨trivial, nofun⟩

theorem safe_acquire {env : RequestEnv β} {path method : String} {userId : Option String}
    (hkey : (calls t).key = some key) : ∀ (retries : ℕ) {n : ℕ} {db : IdempotencyDb τ β},
    Unacquired sha256 calls t db →
    Safe (KeyRely sha256 calls t) (KeyStep sha256 calls t)
      (post (Acquisition sha256 calls t) fun _ _ => True)
      (acquire env t key path method (hashOf sha256 calls t) userId n retries) db
  | 0, n, db, h => by
    unfold acquire
    refine safe_acquireOnce hkey (fun db _ => ?_) h
    rintro db' - b db'' ⟨⟩
  | retries + 1, n, db, h => by
    unfold acquire
    exact safe_acquireOnce hkey (fun db h => safe_acquire hkey retries h) h

/-- What a call ends with, where it is a replay, was stored for it. -/
def Replayed (sha256 : String → String) (calls : τ → HttpCall β) (t : τ) :
    Except IdempotencyError (Option (HttpResponse β)) → IdempotencyDb τ β → Prop :=
  onOk fun answer db => ∀ r, answer = some r → r.idempotentReplay = true → Replays sha256 calls t r db

theorem stable_replayed (r : Except IdempotencyError (Option (HttpResponse β))) :
    Stable (KeyRely sha256 calls t) (Replayed sha256 calls t r) := by
  rcases r with e | answer
  · exact Stable.const True
  · exact fun db db' h hR r hr hrep => stable_replays r db db' (h r hr hrep) hR

/-- What a call ends with, with the reason where it is refused for its payload. -/
def Responded (sha256 : String → String) (calls : τ → HttpCall β) (t : τ)
    (r : Except IdempotencyError (Option (HttpResponse β))) (db : IdempotencyDb τ β) : Prop :=
  Replayed sha256 calls t r db ∧ (r = .ok (some payloadMismatch) → Mismatched sha256 calls t)

theorem stable_responded (r : Except IdempotencyError (Option (HttpResponse β))) :
    Stable (KeyRely sha256 calls t) (Responded sha256 calls t r) :=
  (stable_replayed r).and (Stable.const _)

omit [DecidableEq τ] in
theorem responded_error (e : IdempotencyError) (db : IdempotencyDb τ β) :
    Responded sha256 calls t (.error e) db := ⟨trivial, nofun⟩

/-- What a handler answers is no replay, and no refusal. -/
theorem safe_response (outcome : HandlerOutcome β) (db : IdempotencyDb τ β) :
    Safe (KeyRely sha256 calls t) (KeyStep sha256 calls t) (Responded sha256 calls t)
      (pure outcome.response) db := by
  refine Safe.pure (stable_responded _) ⟨fun r hr hrep => ?_, fun hr => ?_⟩
  · rcases outcome with ⟨code, body⟩ | _ | _ <;>
      simp only [HandlerOutcome.response, Option.some.injEq, reduceCtorEq] at hr
    rw [← hr] at hrep
    cases hrep
  · rcases outcome with ⟨code, body⟩ | _ | _ <;>
      simp [HandlerOutcome.response, payloadMismatch] at hr

theorem safe_refusal {r : HttpResponse β} (hr : r.idempotentReplay = false)
    (hmismatch : r = payloadMismatch → Mismatched sha256 calls t) (db : IdempotencyDb τ β) :
    Safe (KeyRely sha256 calls t) (KeyStep sha256 calls t) (Responded sha256 calls t)
      (pure (some r)) db := by
  refine Safe.pure (stable_responded _) ⟨fun r' hr' hrep => ?_, fun hr' => hmismatch ?_⟩
  · rw [← Option.some.inj hr', hr] at hrep
    cases hrep
  · exact Option.some.inj (Except.ok.inj hr')

theorem safe_runHandler {env : RequestEnv β} (hkey : (calls t).key = some key)
    (houtcome : (calls t).outcome = env.outcome) (hfate : (calls t).onPersist = env.onPersist)
    (h : Handling sha256 calls t db) :
    Safe (KeyRely sha256 calls t) (KeyStep sha256 calls t) (Responded sha256 calls t)
      (runHandler env t key) db := by
  have hstop : (∀ code body, env.outcome ≠ .finished code body) →
      Within (KeyStep sha256 calls t) (Handling sha256 calls t) (Sync.modify fun db => db.release t)
        (post (fun _ _ => True) fun (_ : IdempotencyError) _ => True) := by
    refine fun hno db h => (Sync.wp_modify _).2 ⟨h.release hkey ?_, trivial⟩
    rintro ⟨-, code, body, -, hfinished, -⟩
    exact hno code body (houtcome.symm.trans hfinished)
  have hK := fun _ : Unit =>
    Stable.const (R := KeyRely (β := β) sha256 calls t) True
  have hE := fun _ : IdempotencyError =>
    Stable.const (R := KeyRely (β := β) sha256 calls t) True
  unfold runHandler
  rw [← hfate]
  rcases hout : env.outcome with ⟨code, body⟩ | code | _
  · simp only []
    rw [hout] at houtcome
    split_ifs with hcode
    · exact Safe.of_within stable_handling hK hE (idempotency_complete hkey houtcome hcode) h
        (fun _ db _ => safe_response _ db) fun e db _ => responded_error e db
    · exact Safe.of_within stable_handling hK hE (idempotency_fail hkey houtcome hcode) h
        (fun _ db _ => safe_response _ db) fun e db _ => responded_error e db
  · exact Safe.of_within stable_handling hK hE (hstop (by simp [hout])) h
      (fun _ db _ => safe_response _ db) fun e db _ => responded_error e db
  · exact Safe.of_within stable_handling hK hE (hstop (by simp [hout])) h
      (fun _ db _ => safe_response _ db) fun e db _ => responded_error e db

/-- Every call, from a state in which it has not begun. -/
theorem safe_httpCall (h : Unacquired sha256 calls t db) :
    Safe (KeyRely sha256 calls t) (KeyStep sha256 calls t) (Responded sha256 calls t)
      ((calls t).program sha256 t) db := by
  rcases hcall : calls t with ⟨env, retries, req⟩ | ms
  · simp only [HttpCall.program]
    unfold idempotencyMiddleware
    rcases hkey : req.key with _ | key
    · exact safe_response env.outcome db
    simp only []
    split_ifs with hlong
    · exact safe_refusal rfl (by simp [invalidKey, payloadMismatch]) db
    have hkey' : (calls t).key = some key := by
      simp [hcall, HttpCall.key, hkey, not_lt.1 hlong]
    have hhash : sha256 req.canonicalBody = hashOf sha256 calls t := by
      simp [hashOf, hcall, HttpCall.canonicalBody]
    rw [hhash]
    refine Safe.bind (safe_acquire hkey' retries h) (fun result db h => ?_)
      fun e db _ => responded_error e db
    rcases result with _ | record | _ | _
    · exact safe_runHandler hkey' (by rw [hcall]; rfl) (by rw [hcall]; rfl) h.1
    · refine Safe.pure (stable_responded _) ⟨fun r hr _ => ?_, fun hr => ?_⟩
      · rw [← Option.some.inj hr]
        exact h.1
      · simp [replay, payloadMismatch] at hr
    · exact safe_refusal rfl (by simp [keyInProgress, payloadMismatch]) db
    · exact safe_refusal rfl (fun _ => h.2 rfl) db
  · refine Safe.of_within stable_unacquired (fun _ => Stable.const True)
      (fun _ => Stable.const True)
      (fun db _ => (Sync.wp_modify _).2 ⟨.tick db ms, trivial⟩) h (fun _ db _ => ?_)
      fun e db _ => responded_error e db
    refine Safe.pure (stable_responded _) ⟨fun r hr => ?_, fun hr => ?_⟩
    · cases hr
    · cases hr

end Steps

/-! ## Runs -/

section Runs

variable {sha256 : String → String} {calls : τ → HttpCall β}

theorem keyRely_of_ne (i j : τ) (hij : i ≠ j) (db db' : IdempotencyDb τ β)
    (h : KeyStep sha256 calls j db db') : KeyRely sha256 calls i db db' := ⟨j, hij, h⟩

omit [DecidableEq τ] in
theorem keyInv_empty : KeyInv sha256 calls (.empty : IdempotencyDb τ β) where
  row key row h := by simp [IdempotencyDb.empty] at h
  lease t lease h := by simp [IdempotencyDb.empty] at h
  stored e he := by simp [IdempotencyDb.empty] at he
  completed key row h := by simp [IdempotencyDb.empty] at h

theorem safe_httpCalls (t : τ) :
    Safe (KeyRely sha256 calls t) (KeyStep sha256 calls t) (Responded sha256 calls t)
      ((httpCalls sha256 calls).thread t) (httpCalls sha256 calls).world :=
  safe_httpCall ⟨keyInv_empty, rfl⟩

theorem keyInv_of_reach {c : Config τ (IdempotencyDb τ β) IdempotencyError
    (Option (HttpResponse β))}
    (h : (httpCalls sha256 calls).Reach c) : KeyInv sha256 calls c.world :=
  Safe.invariant keyRely_of_ne safe_httpCalls h (fun _ _ _ hI hs => hs.inv hI) keyInv_empty

/-- Whenever a request is refused for its payload, one with its key has another hash. -/
theorem mismatched_of_refused {c : Config τ (IdempotencyDb τ β) IdempotencyError
    (Option (HttpResponse β))} (hreach : (httpCalls sha256 calls).Reach c) {t : τ}
    (hresult : (c.thread t).result = some (.ok (some payloadMismatch))) :
    Mismatched sha256 calls t :=
  (Safe.ended keyRely_of_ne safe_httpCalls hreach hresult).2 rfl

/-- Whenever a response is replayed to a request, it was stored under the request's key in a row
that a request with the same body had inserted. The request that stored it has the same body too, if
that row is the one it had inserted or read when it acquired the key. -/
theorem replayed_to_same_body (sha256 : String → String) (calls : τ → HttpCall β)
    (hsha256 : ∀ t t', sha256 (calls t).canonicalBody = sha256 (calls t').canonicalBody →
      (calls t).canonicalBody = (calls t').canonicalBody) {is : List τ}
    {c : Config τ (IdempotencyDb τ β) IdempotencyError (Option (HttpResponse β))}
    (hrun : (httpCalls sha256 calls).runSchedule is = some c) {t : τ} {r : HttpResponse β}
    (hresult : (c.thread t).result = some (.ok (some r))) (hreplay : r.idempotentReplay = true) :
    ∃ e ∈ c.world.stored, r = ⟨e.statusCode, true, .json e.body⟩
      ∧ (∃ key, (calls t).key = some key ∧ (calls e.request).key = some key
        ∧ (calls e.row).key = some key)
      ∧ (calls e.row).canonicalBody = (calls t).canonicalBody
      ∧ (e.acquired = e.row → (calls e.request).canonicalBody = (calls t).canonicalBody) := by
  have hreach := Config.reach_of_runSchedule is hrun
  obtain ⟨e, he, hr, hrequest, hrow, hhash, hacquired⟩ : Replays sha256 calls t r c.world :=
    (Safe.ended keyRely_of_ne safe_httpCalls hreach hresult).1 r rfl hreplay
  obtain ⟨-, key, hkey, -⟩ := (keyInv_of_reach hreach).stored e he
  have hkey' : (calls t).key = some key := hrequest.symm.trans hkey
  refine ⟨e, he, hr, ⟨key, hkey', hkey, hrow.trans hkey'⟩, hsha256 _ _ hhash, fun hsame => ?_⟩
  rw [hsame] at hacquired
  exact hsha256 _ _ (hacquired.symm.trans hhash)

end Runs

/-- SHA-256 of the bodies of the samples. -/
def sampleSha256 (s : String) : String :=
  if s = "\x7b\x7d" then "44136fa355b3678a1146ad16f7e8649e94fb4fc21fe77e8310c060f61caaff8a"
  else "e3b0c44298fc1c149afbf4c8996fb92427ae41e4649b934ca495991b7852b855"

/-- Two users send the same key and body, by other methods to other routes. -/
def sampleRequests (t : Fin 2) : HttpCall String :=
  .request ⟨fun _ => .answered, fun _ => .answered, .answered, .answered, .finished 201 (some "evt-1")⟩
    0 ⟨some (.one " key-1 "), some (if t = 0 then "alice" else "bob"), if t = 0 then "POST" else "PATCH",
      "/api", if t = 0 then "/events" else "/orders", some "\x7b\x7d"⟩

/-- The second user is answered with what was stored for the first. -/
theorem replayed_to_same_body_sample :
    ∃ c, (httpCalls sampleSha256 sampleRequests).runSchedule [0, 0, 1, 0, 1, 1] = some c
      ∧ (c.thread 1).result = some (.ok (some ⟨201, true, .json (some "evt-1")⟩))
      ∧ ∃ e ∈ c.world.stored, (⟨201, true, .json (some "evt-1")⟩ : HttpResponse String)
          = ⟨e.statusCode, true, .json e.body⟩
        ∧ (∃ key, (sampleRequests 1).key = some key ∧ (sampleRequests e.request).key = some key
          ∧ (sampleRequests e.row).key = some key)
        ∧ (sampleRequests e.row).canonicalBody = (sampleRequests 1).canonicalBody
        ∧ (e.acquired = e.row →
          (sampleRequests e.request).canonicalBody = (sampleRequests 1).canonicalBody) := by
  have hsome : ((httpCalls sampleSha256 sampleRequests).runSchedule [0, 0, 1, 0, 1, 1]).isSome := by
    decide
  have hrun := Option.eq_some_of_isSome hsome
  exact ⟨_, hrun, rfl, replayed_to_same_body sampleSha256 sampleRequests
    (fun _ _ _ => rfl) hrun rfl rfl⟩

/-- The response of one user's request is replayed to another user's request on another route. -/
theorem replay_crosses_users :
    ¬ ∀ (is : List (Fin 2)) c, (httpCalls sampleSha256 sampleRequests).runSchedule is = some c →
      ∀ t r, (c.thread t).result = some (.ok (some r)) → r.idempotentReplay = true →
        ∃ e ∈ c.world.stored, r = ⟨e.statusCode, true, .json e.body⟩
          ∧ (sampleRequests e.request).key = (sampleRequests t).key
          ∧ (sampleRequests e.request).origin = (sampleRequests t).origin
          ∧ (sampleRequests e.request).canonicalBody = (sampleRequests t).canonicalBody := by
  intro h
  have hsome : ((httpCalls sampleSha256 sampleRequests).runSchedule [0, 0, 1, 0, 1, 1]).isSome := by
    decide
  obtain ⟨e, he, -, -, horigin, -⟩ := h _ _ (Option.eq_some_of_isSome hsome) 1 _ rfl rfl
  rw [List.mem_singleton.1 he] at horigin
  exact absurd horigin (by decide)

end LaunchPad
