import LaunchPad.Lib.Protocol
import LaunchPad.Proofs.Idempotency

/-!
# Requests that lost their keys

A request loses its key when another one takes it after its lock has expired. Nothing in the row
says whose it is: `complete` changes whatever row the key has, and `fail` deletes any row that is in
progress. So a request that comes late leaves the table alone only where it finds nothing to change.

Where all of them do, a handler that runs and has not lost its key finds its row in progress
(`Held`), so only a request that lost its key could hit a row that is completed, and what is
recorded stays.
-/

namespace LaunchPad

open Interleave Rows

variable {τ β : Type}

/-- With this step a request is done with its key. -/
def Finishes (s : Taken τ (IdempotencyDb τ β)) : Prop :=
  (s.before.running s.thread).isSome ∧ s.after.running s.thread = none

section Lost

variable (calls : τ → HttpCall β) (key : String)

/-- With this step a request takes the key: its handler begins, or else it put the row in progress
and was not told. -/
def TakesKey (s : Taken τ (IdempotencyDb τ β)) : Prop :=
  (calls s.thread).key = some key ∧ (s.after.runs = s.before.runs ++ [s.thread]
    ∨ ∃ row, s.after.keys.row key = some row ∧ row.status = .inProgress
      ∧ s.before.keys.row key ≠ some row)

/-- Another request took the key after the handler of `t` had begun. -/
def LostKey (t : τ) (h : List (Taken τ (IdempotencyDb τ β))) : Prop :=
  ∃ s ∈ h, s.thread ≠ t ∧ t ∈ s.before.runs ∧ TakesKey calls key s

end Lost

/-- The statement that follows the handler of the call finds nothing to change: it fails, or there
is no row, or, for `complete`, the row has the response already, or, for `fail`, it is not in
progress. -/
def HttpCall.FindsNothing (call : HttpCall β) (key : String) (db : IdempotencyDb τ β) : Prop :=
  ∀ statusCode body row, call.outcome = .finished statusCode body → call.onPersist ≠ .failed →
    db.keys.row key = some row →
      if 200 ≤ statusCode ∧ statusCode < 500 then IsRecorded key statusCode body db
      else row.status ≠ .inProgress

/-- A request that lost its key leaves the table as it is. -/
def Spares (calls : τ → HttpCall β) (h : List (Taken τ (IdempotencyDb τ β)))
    (s : Taken τ (IdempotencyDb τ β)) : Prop :=
  ∀ key, (calls s.thread).key = some key → Finishes s → LostKey calls key s.thread h →
    s.after.keys = s.before.keys

/-- What is recorded in one table is recorded in the other. -/
def KeepsRecorded (db db' : IdempotencyDb τ β) : Prop :=
  ∀ key statusCode body, IsRecorded key statusCode body db → IsRecorded key statusCode body db'

/-- All along the run, requests that lost their keys leave the table as it is, and a response that
is recorded for a key stays the one that is replayed. -/
structure Fenced (calls : τ → HttpCall β) (h : List (Taken τ (IdempotencyDb τ β))) : Prop where
  spares : ∀ h₁ s, h₁ ++ [s] <+: h → Spares calls h₁ s
  replayed : h.Pairwise fun s s' => KeepsRecorded s.after s'.after

/-! ## The step that ends a request -/

/-- A row that is completed has the headers that every response has, and no lock. -/
def CompletedRows (db : IdempotencyDb τ β) : Prop :=
  ∀ key row, db.keys.row key = some row → row.status = .completed →
    row.responseHeaders = some jsonHeaders ∧ row.lockedUntil = none

theorem IsRecorded.body_eq {key : String} {statusCode statusCode' : ℕ} {body body' : Option β}
    {db : IdempotencyDb τ β} (h : IsRecorded key statusCode body db)
    (h' : IsRecorded key statusCode' body' db) : body = body' := by
  obtain ⟨row, hrow, -, -, hbody⟩ := h
  obtain ⟨row', hrow', -, -, hbody'⟩ := h'
  obtain rfl := Option.some.inj (hrow.symm.trans hrow')
  exact hbody.symm.trans hbody'

theorem IsRecorded.row_eq {db : IdempotencyDb τ β} (hC : CompletedRows db) {key : String}
    {statusCode : ℕ} {body : Option β} {row : IdempotencyRow τ β}
    (h : IsRecorded key statusCode body db) (hrow : db.keys.row key = some row) :
    row = row.completedWith statusCode jsonHeaders body := by
  obtain ⟨row', hrow', hstatus, hcode, hbody⟩ := h
  obtain rfl := Option.some.inj (hrow.symm.trans hrow')
  obtain ⟨hheaders, hlocked⟩ := hC key row hrow hstatus
  cases row
  simp only [IdempotencyRow.completedWith, IdempotencyRow.mk.injEq] at *
  simp [*]

/-- What one request does to the row of one key decides what holds of every row. -/
theorem CompletedRows.set {db db' : IdempotencyDb τ β} (hC : CompletedRows db) {key : String}
    {row : IdempotencyRow τ β} (hrow : row.status = .completed →
      row.responseHeaders = some jsonHeaders ∧ row.lockedUntil = none)
    (hkeys : db'.keys = db.keys.set key row) : CompletedRows db' := by
  intro key' row' h' hstatus
  rw [hkeys, Table.set_row] at h'
  split_ifs at h'
  · obtain rfl := Option.some.inj h'
    exact hrow hstatus
  · exact hC key' row' h' hstatus

/-- A request may take the key: it has no row, or one whose lock has expired. -/
def IsFree (key : String) (db : IdempotencyDb τ β) : Prop :=
  db.keys.row key = none ∨ ∃ row expired, db.keys.row key = some row ∧ row.status = .inProgress
    ∧ row.lockedUntil = some expired ∧ expired < db.now

section Steps

variable [DecidableEq τ] {sha256 : String → String} {calls : τ → HttpCall β} {t : τ}
  {db db' : IdempotencyDb τ β} {key : String}

theorem KeyStep.completedRows (h : KeyStep sha256 calls t db db') (hC : CompletedRows db) :
    CompletedRows db' := by
  cases h with
  | idle => exact hC
  | tick => exact hC
  | insert granted hkey hidle habsent hhash hstatus =>
    exact hC.set (fun hs => by rw [hstatus] at hs; cases hs) (grantIf_keys ..)
  | reclaim => exact hC.set (fun hs => by cases hs) (grantIf_keys ..)
  | complete headers hkey hlease hrow he hcode hheaders =>
    exact hC.set (fun _ => ⟨by rw [hheaders]; rfl, rfl⟩) rfl
  | fail =>
    intro key' row' h' hstatus
    rw [release_keys, Table.erase_row] at h'
    split_ifs at h'
    exact hC key' row' h' hstatus
  | release => exact hC

theorem isSome_of_release {t' : τ} (h : ((db.release t).running t').isSome) :
    (db.running t').isSome := by
  rw [release_running] at h
  split_ifs at h with ht
  · cases h
  · exact h

/-- A handler begins only under a key that is free, and locks it. -/
theorem KeyStep.runs_cases (h : KeyStep sha256 calls t db db') :
    (db'.runs = db.runs ∧ ∀ t', (db'.running t').isSome → (db.running t').isSome)
      ∨ (db'.running t).isSome ∧ db'.runs = db.runs ++ [t] ∧ ∃ key, (calls t).key = some key
        ∧ IsFree key db ∧ ∃ row, db'.keys.row key = some row ∧ row.status = .inProgress := by
  cases h with
  | idle => exact .inl ⟨rfl, fun _ hr => hr⟩
  | tick => exact .inl ⟨rfl, fun _ hr => hr⟩
  | @insert key row lockedUntil granted hkey hidle habsent hhash hstatus =>
    cases granted
    · exact .inl ⟨rfl, fun _ hr => hr⟩
    · exact .inr ⟨by simp [grantIf_running], rfl, key, hkey, .inl habsent, row,
        Table.set_row_self .., hstatus⟩
  | @reclaim key row expired lease granted hkey hidle hrow hstatus hlocked hexpired =>
    cases granted
    · exact .inl ⟨rfl, fun _ hr => hr⟩
    · exact .inr ⟨by simp [grantIf_running], rfl, key, hkey,
        .inr ⟨row, expired, hrow, hstatus, hlocked, hexpired⟩, _, Table.set_row_self .., rfl⟩
  | complete => exact .inl ⟨rfl, fun t' hr => isSome_of_release hr⟩
  | fail => exact .inl ⟨rfl, fun t' hr => isSome_of_release hr⟩
  | release => exact .inl ⟨rfl, fun t' hr => isSome_of_release hr⟩

/-- The row of a key changes only where the key is free, and then it is locked, or where a request
is done with it. -/
theorem KeyStep.row_cases (h : KeyStep sha256 calls t db db') (key : String) :
    db'.keys.row key = db.keys.row key
      ∨ (IsFree key db ∧ ∃ row, db'.keys.row key = some row ∧ row.status = .inProgress)
      ∨ (calls t).key = some key ∧ (db.running t).isSome ∧ db'.running t = none := by
  cases h with
  | idle => exact .inl rfl
  | tick => exact .inl rfl
  | @insert key' row lockedUntil granted hkey hidle habsent hhash hstatus =>
    rw [grantIf_keys, Table.set_row]
    split_ifs with hk
    · exact .inr (.inl ⟨.inl (hk ▸ habsent), row, rfl, hstatus⟩)
    · exact .inl rfl
  | @reclaim key' row expired lease granted hkey hidle hrow hstatus hlocked hexpired =>
    rw [grantIf_keys, Table.set_row]
    split_ifs with hk
    · exact .inr (.inl ⟨.inr ⟨row, expired, hk ▸ hrow, hstatus, hlocked, hexpired⟩, _, rfl, rfl⟩)
    · exact .inl rfl
  | @complete key' _ _ _ headers hkey hlease =>
    by_cases hk : key = key'
    · exact .inr (.inr ⟨hk ▸ hkey, by simp [hlease], by simp [release_running]⟩)
    · exact .inl (by rw [release_keys, Table.set_row, if_neg hk])
  | @fail key' _ _ _ _ hkey hlease =>
    by_cases hk : key = key'
    · exact .inr (.inr ⟨hk ▸ hkey, by simp [hlease], by simp [release_running]⟩)
    · exact .inl (by rw [release_keys, Table.erase_row, if_neg hk])
  | release => exact .inl rfl

/-- A request that is done with its key has completed the row, or deleted it, or left the table
alone since there was nothing to persist. -/
theorem KeyStep.finish_cases (h : KeyStep sha256 calls t db db') (hkey : (calls t).key = some key)
    (hrunning : (db.running t).isSome) (hdone : db'.running t = none) :
    (∃ statusCode body row, (calls t).outcome = .finished statusCode body
        ∧ (calls t).onPersist ≠ .failed ∧ db.keys.row key = some row
        ∧ (200 ≤ statusCode ∧ statusCode < 500)
        ∧ db'.keys = db.keys.set key (row.completedWith statusCode jsonHeaders body))
      ∨ (∃ statusCode body row, (calls t).outcome = .finished statusCode body
        ∧ (calls t).onPersist ≠ .failed ∧ db.keys.row key = some row
        ∧ ¬ (200 ≤ statusCode ∧ statusCode < 500) ∧ row.status = .inProgress
        ∧ db'.keys = db.keys.erase key)
      ∨ ¬ (calls t).Persists key db ∧ db'.keys = db.keys := by
  have hkey_eq : ∀ {key'}, (calls t).key = some key' → key' = key := fun hkey' =>
    Option.some.inj (hkey'.symm.trans hkey)
  have hbegun : db.running t ≠ none := Option.isSome_iff_ne_none.1 hrunning
  cases h with
  | idle => exact absurd hdone hbegun
  | tick => exact absurd hdone hbegun
  | insert granted hkey' hidle => exact absurd hidle hbegun
  | reclaim granted hkey' hidle => exact absurd hidle hbegun
  | @complete key' row lease e headers hkey' hlease hrow he hcode hheaders houtcome hfate =>
    obtain rfl := hkey_eq hkey'
    obtain rfl := hheaders
    exact .inl ⟨e.statusCode, e.body, row, houtcome, hfate, hrow, hcode, rfl⟩
  | @fail key' row lease statusCode body hkey' hlease hrow hstatus houtcome hcode hfate =>
    obtain rfl := hkey_eq hkey'
    exact .inr (.inl ⟨statusCode, body, row, houtcome, hfate, hrow, hcode, hstatus, rfl⟩)
  | release hlease hkey' hidle =>
    obtain rfl := hkey_eq hkey'
    exact .inr (.inr ⟨hidle, rfl⟩)

/-- A request is done with its key and changes nothing just if it finds nothing to change. -/
theorem KeyStep.keys_eq_iff (h : KeyStep sha256 calls t db db') (hC : CompletedRows db)
    (hkey : (calls t).key = some key) (hrunning : (db.running t).isSome)
    (hdone : db'.running t = none) : db'.keys = db.keys ↔ (calls t).FindsNothing key db := by
  rcases h.finish_cases hkey hrunning hdone with
    ⟨code, body, row, houtcome, hfate, hrow, hcode, hkeys⟩ |
    ⟨code, body, row, houtcome, hfate, hrow, hcode, hstatus, hkeys⟩ | ⟨hidle, hkeys⟩
  · rw [hkeys]
    constructor
    · intro hsame code' body' row' houtcome' _ _
      rw [houtcome, HandlerOutcome.finished.injEq] at houtcome'
      obtain ⟨rfl, rfl⟩ := houtcome'
      rw [if_pos hcode]
      refine ⟨row.completedWith code jsonHeaders body, ?_, rfl, rfl, rfl⟩
      rw [← hsame, Table.set_row_self]
    · intro hnothing
      have hrec := hnothing code body row houtcome hfate hrow
      rw [if_pos hcode] at hrec
      ext1 key'
      rw [Table.set_row]
      split_ifs with hk
      · rw [hk, hrow, ← hrec.row_eq hC hrow]
      · rfl
  · rw [hkeys]
    constructor
    · intro hsame
      have hgone := congrArg (fun T => T.row key) hsame
      simp [Table.erase_row, hrow] at hgone
    · intro hnothing
      have hrec := hnothing code body row houtcome hfate hrow
      rw [if_neg hcode] at hrec
      exact absurd hstatus hrec
  · refine ⟨fun _ code body row houtcome hfate hrow => ?_, fun _ => hkeys⟩
    split_ifs with hcode
    · exact absurd ⟨hfate, code, body, row, houtcome, hrow, .inl hcode⟩ hidle
    · exact fun hstatus => hidle ⟨hfate, code, body, row, houtcome, hrow, .inr hstatus⟩

end Steps

/-! ## Runs -/

section Held

variable (calls : τ → HttpCall β)

/-- Of the requests that have begun under a key all but one have lost it, and the row of the one
that has not is in progress while it runs. -/
structure Held (h : List (Taken τ (IdempotencyDb τ β))) (db : IdempotencyDb τ β) : Prop where
  begun : ∀ t, (db.running t).isSome → t ∈ db.runs
  once : ∀ key t t', (calls t).key = some key → (calls t').key = some key → t ∈ db.runs →
    t' ∈ db.runs → t ≠ t' → LostKey calls key t h ∨ LostKey calls key t' h
  locked : ∀ key t, (calls t).key = some key → (db.running t).isSome → ¬ LostKey calls key t h →
    ∃ row, db.keys.row key = some row ∧ row.status = .inProgress

variable {calls} {h : List (Taken τ (IdempotencyDb τ β))} {db db' : IdempotencyDb τ β} {t : τ}
  {key : String}

theorem LostKey.snoc (hl : LostKey calls key t h) (s : Taken τ (IdempotencyDb τ β)) :
    LostKey calls key t (h ++ [s]) := by
  obtain ⟨s', hs', hlost⟩ := hl
  exact ⟨s', List.mem_append_left _ hs', hlost⟩

/-- A handler that begins takes the key from those that have begun before. -/
theorem LostKey.of_begin {t' : τ} (ht : (calls t).key = some key)
    (hruns : db'.runs = db.runs ++ [t]) (hne : t ≠ t') (hbegun : t' ∈ db.runs) :
    LostKey calls key t' (h ++ [⟨t, db, db'⟩]) :=
  ⟨⟨t, db, db'⟩, by simp, hne, hbegun, ht, .inl hruns⟩

/-- Nobody but its holder changes the row of a key, where requests that lost it spare it. -/
theorem Held.row_of_finishes (hH : Held calls h db) (hspares : Spares calls h ⟨t, db, db'⟩) {t' : τ}
    (ht : (calls t).key = some key) (ht' : (calls t').key = some key)
    (hrunning : (db.running t).isSome) (hdone : db'.running t = none)
    (hrunning' : (db.running t').isSome) (hne : t ≠ t') (hkept : ¬ LostKey calls key t' h) :
    db'.keys.row key = db.keys.row key := by
  have hlost : LostKey calls key t h :=
    (hH.once key t t' ht ht' (hH.begun t hrunning) (hH.begun t' hrunning') hne).resolve_right hkept
  rw [hspares key ht ⟨hrunning, hdone⟩ hlost]

variable [DecidableEq τ] {sha256 : String → String}

theorem Held.once_snoc (hH : Held calls h db) (hs : KeyStep sha256 calls t db db') (key : String)
    (t₁ t₂ : τ) (h₁ : (calls t₁).key = some key) (h₂ : (calls t₂).key = some key)
    (hb₁ : t₁ ∈ db'.runs) (hb₂ : t₂ ∈ db'.runs) (hne : t₁ ≠ t₂) :
    LostKey calls key t₁ (h ++ [⟨t, db, db'⟩]) ∨ LostKey calls key t₂ (h ++ [⟨t, db, db'⟩]) := by
  have hold : t₁ ∈ db.runs → t₂ ∈ db.runs →
      LostKey calls key t₁ (h ++ [⟨t, db, db'⟩]) ∨ LostKey calls key t₂ (h ++ [⟨t, db, db'⟩]) :=
    fun hb₁ hb₂ => (hH.once key t₁ t₂ h₁ h₂ hb₁ hb₂ hne).imp (fun hl => hl.snoc _)
      fun hl => hl.snoc _
  rcases hs.runs_cases with ⟨hruns, -⟩ | ⟨-, hruns, -⟩
  · rw [hruns] at hb₁ hb₂
    exact hold hb₁ hb₂
  · rw [hruns, List.mem_append, List.mem_singleton] at hb₁ hb₂
    rcases hb₁ with hb₁ | rfl <;> rcases hb₂ with hb₂ | rfl
    · exact hold hb₁ hb₂
    · exact .inl (.of_begin h₂ hruns (Ne.symm hne) hb₁)
    · exact .inr (.of_begin h₁ hruns hne hb₂)
    · exact absurd rfl hne

theorem Held.step (hH : Held calls h db) (hs : KeyStep sha256 calls t db db')
    (hspares : Spares calls h ⟨t, db, db'⟩) : Held calls (h ++ [⟨t, db, db'⟩]) db' where
  begun t' hr := by
    rcases hs.runs_cases with ⟨hruns, hrunning⟩ | ⟨-, hruns, -⟩
    · rw [hruns]
      exact hH.begun t' (hrunning t' hr)
    · rw [hruns, List.mem_append, List.mem_singleton]
      by_cases ht : t' = t
      · exact .inr ht
      · rw [hs.running_other ht] at hr
        exact .inl (hH.begun t' hr)
  once := hH.once_snoc hs
  locked key t' ht' hr hkept := by
    have hkept' : ¬ LostKey calls key t' h := fun hl => hkept (hl.snoc _)
    by_cases hrunning : (db.running t').isSome
    · rcases hs.row_cases key with hrow | ⟨-, hrow⟩ | ⟨ht, hrun, hdone⟩
      · rw [hrow]
        exact hH.locked key t' ht' hrunning hkept'
      · exact hrow
      · have hne : t ≠ t' := by
          rintro rfl
          simp [hdone] at hr
        rw [hH.row_of_finishes hspares ht ht' hrun hdone hrunning hne hkept']
        exact hH.locked key t' ht' hrunning hkept'
    · -- it has just begun
      have ht : t' = t := by
        by_contra hne
        exact hrunning (hs.running_other hne ▸ hr)
      subst ht
      rcases hs.runs_cases with ⟨-, hbefore⟩ | ⟨-, -, key', hkey, -, hrow⟩
      · exact absurd (hbefore t' hr) hrunning
      · obtain rfl : key' = key := Option.some.inj (hkey.symm.trans ht')
        exact hrow

/-- Only requests that lost the key could change what is recorded for it. -/
theorem Held.keepsRecorded (hH : Held calls h db) (hs : KeyStep sha256 calls t db db')
    (hspares : Spares calls h ⟨t, db, db'⟩) : KeepsRecorded db db' := by
  rintro key statusCode body ⟨row, hrow, hstatus, hresponse⟩
  have hcompleted : ∀ row', db.keys.row key = some row' → row'.status ≠ .inProgress := by
    intro row' hrow'
    rw [← Option.some.inj (hrow.symm.trans hrow'), hstatus]
    decide
  suffices hsame : db'.keys.row key = db.keys.row key from
    ⟨row, hsame.trans hrow, hstatus, hresponse⟩
  rcases hs.row_cases key with hsame | ⟨hfree, -⟩ | ⟨ht, hrunning, hdone⟩
  · exact hsame
  · rcases hfree with habsent | ⟨row', -, hrow', hstatus', -⟩
    · rw [hrow] at habsent
      cases habsent
    · exact absurd hstatus' (hcompleted row' hrow')
  · have hlost : LostKey calls key t h := by
      by_contra hkept
      obtain ⟨row', hrow', hstatus'⟩ := hH.locked key t ht hrunning hkept
      exact hcompleted row' hrow' hstatus'
    rw [hspares key ht ⟨hrunning, hdone⟩ hlost]

end Held

section Runs

variable [DecidableEq τ] {sha256 : String → String} {calls : τ → HttpCall β}
  {h : List (Taken τ (IdempotencyDb τ β))}
  {c : Config τ (IdempotencyDb τ β) IdempotencyError (Option (HttpResponse β))}

/-- What every `KeyStep` keeps, of the history and the table, holds before each step of a run. -/
theorem keyStep_of_run {P : List (Taken τ (IdempotencyDb τ β)) → IdempotencyDb τ β → Prop}
    (hP₀ : P [] .empty) (hP : ∀ h db t db', P h db → KeyStep sha256 calls t db db' →
      P (h ++ [⟨t, db, db'⟩]) db')
    (hrun : (httpCalls sha256 calls).Run h c) {h₁ : List (Taken τ (IdempotencyDb τ β))}
    {s : Taken τ (IdempotencyDb τ β)} (hp : h₁ ++ [s] <+: h) :
    P h₁ s.before ∧ KeyStep sha256 calls s.thread s.before s.after :=
  Safe.run_of_prefix keyRely_of_ne safe_httpCalls hP₀ hP hrun hp

/-- What is recorded stays, where every request that lost its key spares the table. -/
theorem replayed_of_spares (hrun : (httpCalls sha256 calls).Run h c)
    (hspares : ∀ h₁ s, h₁ ++ [s] <+: h → Spares calls h₁ s) :
    h.Pairwise fun s s' => KeepsRecorded s.after s'.after := by
  suffices hall : Held calls h c.world ∧ (h.Pairwise fun s s' => KeepsRecorded s.after s'.after)
      ∧ ∀ s ∈ h, KeepsRecorded s.after c.world from hall.2.1
  revert hspares
  refine Safe.run keyRely_of_ne safe_httpCalls
    (P := fun h db => (∀ h₁ s, h₁ ++ [s] <+: h → Spares calls h₁ s) → Held calls h db
      ∧ (h.Pairwise fun s s' => KeepsRecorded s.after s'.after)
      ∧ ∀ s ∈ h, KeepsRecorded s.after db)
    (fun _ => ⟨⟨?_, ?_, ?_⟩, .nil, ?_⟩) (fun h db t db' ih hs hspares => ?_) hrun
  · rintro t ⟨⟩
  · rintro key t t' - - ⟨⟩
  · rintro key t - ⟨⟩
  · rintro s ⟨⟩
  obtain ⟨hH, hpair, hrec⟩ := ih fun h₁ s hp => hspares h₁ s (hp.trans (List.prefix_append _ _))
  have hnew : Spares calls h ⟨t, db, db'⟩ := hspares h _ List.prefix_rfl
  have hkeeps : ∀ s ∈ h, KeepsRecorded s.after db' := fun s hmem key statusCode body hr =>
    hH.keepsRecorded hs hnew key statusCode body (hrec s hmem key statusCode body hr)
  refine ⟨hH.step hs hnew, List.pairwise_append.2 ⟨hpair, List.pairwise_singleton _ _, ?_⟩, ?_⟩
  · intro s hmem s' hmem'
    rw [List.mem_singleton.1 hmem']
    exact hkeeps s hmem
  · intro s hmem
    rcases List.mem_append.1 hmem with hmem | hmem
    · exact hkeeps s hmem
    · rw [List.mem_singleton.1 hmem]
      exact fun _ _ _ hr => hr

/-- Any requests and the clock, interleaved statement by statement in any way, with handlers that
run as long as they please. Requests that lost their keys leave the table as it is, and what is
recorded for a key stays, just if each request that lost its key finds nothing to change where it is
done. -/
theorem fenced_iff (sha256 : String → String) (calls : τ → HttpCall β)
    {h : List (Taken τ (IdempotencyDb τ β))}
    {c : Config τ (IdempotencyDb τ β) IdempotencyError (Option (HttpResponse β))}
    (hrun : (httpCalls sha256 calls).Run h c) :
    Fenced calls h ↔ ∀ h₁ s, h₁ ++ [s] <+: h → ∀ key, (calls s.thread).key = some key →
      Finishes s → LostKey calls key s.thread h₁ →
        (calls s.thread).FindsNothing key s.before := by
  have hstep : ∀ h₁ s, h₁ ++ [s] <+: h → ∀ key, (calls s.thread).key = some key → Finishes s →
      (s.after.keys = s.before.keys ↔ (calls s.thread).FindsNothing key s.before) := by
    intro h₁ s hp key hkey hfin
    obtain ⟨hC, hs⟩ := keyStep_of_run (P := fun _ db => CompletedRows db)
      (fun key row hrow => by simp [IdempotencyDb.empty] at hrow)
      (fun _ _ _ _ hC hs => hs.completedRows hC) hrun hp
    exact hs.keys_eq_iff hC hkey hfin.1 hfin.2
  constructor
  · intro hF h₁ s hp key hkey hfin hlost
    exact (hstep h₁ s hp key hkey hfin).1 (hF.spares h₁ s hp key hkey hfin hlost)
  · intro hnothing
    have hspares : ∀ h₁ s, h₁ ++ [s] <+: h → Spares calls h₁ s := fun h₁ s hp key hkey hfin hlost =>
      (hstep h₁ s hp key hkey hfin).2 (hnothing h₁ s hp key hkey hfin hlost)
    exact ⟨hspares, replayed_of_spares hrun hspares⟩

end Runs

/-- The second request comes when the lock of the first one has expired. -/
def sampleLate (t : Fin 3) : HttpCall String :=
  if t.val = 1 then .tick 30001
  else .request ⟨fun _ => .answered, fun _ => .answered, .answered, .answered,
      .finished 201 (some (if t.val = 0 then "evt-1" else "evt-2"))⟩
    0 ⟨some (.one "key-1"), none, "POST", "/api", "/events", some "\x7b\x7d"⟩

theorem sampleLate_isSome :
    ((httpCalls sampleSha256 sampleLate).history [0, 0, 1, 2, 2, 2, 2, 2, 0, 2]).isSome := by decide

/-- The first handler is late and completes the row that the second request has reclaimed; the
second one then replaces what is recorded. -/
theorem sampleLate_replaced : ∃ h c, (httpCalls sampleSha256 sampleLate).Run h c
    ∧ ∃ s s', h[8]? = some s ∧ h[9]? = some s' ∧ IsRecorded "key-1" 201 (some "evt-1") s.after
      ∧ IsRecorded "key-1" 201 (some "evt-2") s'.after :=
  ⟨_, _, Config.run_of_history _ (Option.eq_some_of_isSome sampleLate_isSome), _, _, rfl, rfl,
    ⟨_, rfl, rfl, rfl, rfl⟩, ⟨_, rfl, rfl, rfl, rfl⟩⟩

/-- What is replayed for the key changes. -/
theorem not_fenced_of_replaced {h : List (Taken (Fin 3) (IdempotencyDb (Fin 3) String))}
    {s s' : Taken (Fin 3) (IdempotencyDb (Fin 3) String)} (hs : h[8]? = some s)
    (hs' : h[9]? = some s')
    (hrec : IsRecorded "key-1" 201 (some "evt-1") s.after)
    (hrec' : IsRecorded "key-1" 201 (some "evt-2") s'.after) : ¬ Fenced sampleLate h := by
  intro hF
  obtain ⟨hlt, rfl⟩ := List.getElem?_eq_some_iff.1 hs
  obtain ⟨hlt', rfl⟩ := List.getElem?_eq_some_iff.1 hs'
  have hkeeps := List.pairwise_iff_getElem.1 hF.replayed 8 9 hlt hlt' (by decide)
  exact absurd ((hkeeps _ _ _ hrec).body_eq hrec') (by decide)

theorem fenced_iff_late : ∃ h c, (httpCalls sampleSha256 sampleLate).Run h c
    ∧ ∃ h₁ s, h₁ ++ [s] <+: h ∧ ∃ key, (sampleLate s.thread).key = some key ∧ Finishes s
      ∧ LostKey sampleLate key s.thread h₁ ∧ ¬ (sampleLate s.thread).FindsNothing key s.before := by
  obtain ⟨h, c, hrun, s, s', hs, hs', hrec, hrec'⟩ := sampleLate_replaced
  refine ⟨h, c, hrun, ?_⟩
  by_contra hno
  push Not at hno
  exact not_fenced_of_replaced hs hs' hrec hrec' ((fenced_iff sampleSha256 sampleLate hrun).2 hno)

theorem fenced_fails : ¬ ∀ h c, (httpCalls sampleSha256 sampleLate).Run h c →
    Fenced sampleLate h := by
  intro hall
  obtain ⟨h, c, hrun, s, s', hs, hs', hrec, hrec'⟩ := sampleLate_replaced
  exact not_fenced_of_replaced hs hs' hrec hrec' (hall h c hrun)

end LaunchPad
