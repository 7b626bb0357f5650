import LaunchPad.Lib.Text
import LaunchPad.Proofs.RateLimit
import LaunchPad.RateLimiter

/-!
# Rate-limit scoping

A client has an address, a user id and a path, each of the first two only where its requests have
one. The keys of two clients are the same text exactly where the pieces between their colons are the
same in a row; a limiter whose clients do not meet in this way decides on each as if it was alone.
-/

namespace LaunchPad

open Feed

namespace ClientRequest

/-- The (address, user, path) a request is from. -/
def client (req : ClientRequest) : Option String × Option String × String :=
  (req.address, req.user, req.fullPath)

/-- The texts between the colons of the address, of the user id and of the path. -/
def pieces (req : ClientRequest) : List (List Char) :=
  (req.address.getD "anonymous").toList.splitOn ':' ++ (req.user.getD "anon").toList.splitOn ':'
    ++ req.fullPath.toList.splitOn ':'

/-- The two are from the same client, or have other pieces. -/
def ToldApart (req req' : ClientRequest) : Prop :=
  req.client = req'.client ∨ req.pieces ≠ req'.pieces

theorem toList_defaultKeyGen (req : ClientRequest) :
    req.defaultKeyGen.toList = ((req.address.getD "anonymous").toList
      ++ ':' :: (req.user.getD "anon").toList) ++ ':' :: req.fullPath.toList := by
  have hcolon : ":".toList = [':'] := rfl
  simp only [defaultKeyGen, String.toList_append, hcolon, List.append_assoc, List.cons_append,
    List.nil_append]

theorem splitOn_defaultKeyGen (req : ClientRequest) :
    req.defaultKeyGen.toList.splitOn ':' = req.pieces := by
  rw [toList_defaultKeyGen, List.splitOn_append_cons_self, List.splitOn_append_cons_self, pieces]

theorem defaultKeyGen_eq_iff {req req' : ClientRequest} :
    req.defaultKeyGen = req'.defaultKeyGen ↔ req.pieces = req'.pieces := by
  rw [← splitOn_defaultKeyGen, ← splitOn_defaultKeyGen]
  refine ⟨fun h => by rw [h], fun h => String.toList_inj.1 ?_⟩
  have := congrArg [':'].intercalate h
  rwa [List.intercalate_splitOn, List.intercalate_splitOn] at this

theorem pieces_congr {req req' : ClientRequest} (h : req.client = req'.client) :
    req.pieces = req'.pieces := by
  obtain ⟨haddress, huser, hpath⟩ : req.address = req'.address ∧ req.user = req'.user
      ∧ req.fullPath = req'.fullPath := by simpa [client] using h
  simp only [pieces, haddress, huser, hpath]

/-- Clients with an address and a user id are told apart where neither their user ids nor their
paths have colons, whatever their addresses are. -/
theorem toldApart_of_colonless {req req' : ClientRequest} {a a' u u' : String}
    (ha : req.address = some a) (ha' : req'.address = some a') (hu : req.user = some u)
    (hu' : req'.user = some u') (hcolon : ':' ∉ u.toList) (hcolon' : ':' ∉ u'.toList)
    (hpath : ':' ∉ req.fullPath.toList) (hpath' : ':' ∉ req'.fullPath.toList) :
    req.ToldApart req' := by
  refine or_iff_not_imp_right.2 fun h => ?_
  have hkey := congrArg String.toList (defaultKeyGen_eq_iff.2 (not_not.1 h))
  rw [toList_defaultKeyGen, toList_defaultKeyGen, ha, ha', hu, hu'] at hkey
  obtain ⟨hfront, hp⟩ := Text.append_cons_inj _ _ hpath hpath' hkey
  obtain ⟨haddress, huser⟩ := Text.append_cons_inj _ _ hcolon hcolon' hfront
  obtain rfl : a = a' := String.toList_inj.1 haddress
  obtain rfl : u = u' := String.toList_inj.1 huser
  rw [client, client, ha, ha', hu, hu', String.toList_inj.1 hp]

end ClientRequest

/-! ## The middleware -/

section Limiter

variable {S C : Type} (strategy : IRateLimiterStrategy S) (cost : Option ℚ)

/-- The middleware, with the default key. -/
def scopedLimiter : Arrival → S → RateLimiterOutcome × S :=
  rateLimiter ⟨strategy, none, cost⟩

/-- Where nothing else has come in, the second finds the bucket of the first. -/
def SharesBucket (bucket : S → String → Option C) (s₀ : S) (a a' : Arrival) : Prop :=
  (bucket (scopedLimiter strategy cost a s₀).2 a'.req.defaultKeyGen).isSome

/-- What the arrivals from a client get. -/
def decisions (s : S) (client : Option String × Option String × String)
    (arrivals : List Arrival) : List (Arrival × RateLimiterOutcome) :=
  (answers (scopedLimiter strategy cost) s arrivals).filter fun p => p.1.req.client = client

/-- The scoping of a limiter: the requests it tells apart, and that of those it does, the decisions
for one client are the same whatever the other clients do. -/
structure Scopes (bucket : S → String → Option C) (s₀ : S) : Prop where
  shares_iff : ∀ a a', (SharesBucket strategy cost bucket s₀ a a' ↔ a.req.client = a'.req.client)
    ↔ a.req.ToldApart a'.req
  isolated : ∀ (s : S) client (arrivals arrivals' : List Arrival),
    (∀ a ∈ arrivals, ∀ a' ∈ arrivals, a.req.ToldApart a'.req) →
    (∀ a ∈ arrivals', ∀ a' ∈ arrivals', a.req.ToldApart a'.req) →
    (arrivals.filter fun a => a.req.client = client)
      = (arrivals'.filter fun a => a.req.client = client) →
    decisions strategy cost s client arrivals = decisions strategy cost s client arrivals'

variable {strategy}

/-- The middleware hands a request to the bucket of its key. -/
theorem scopedLimiter_snd (a : Arrival) (s : S) :
    (scopedLimiter strategy cost a s).2
      = (strategy.consume ⟨a.req.defaultKeyGen, cost.getD 1, a.nowMs⟩ s).2 := by
  simp only [scopedLimiter, rateLimiter, Option.getD_none]
  split <;> rfl

/-- What it answers depends on what the strategy said. -/
theorem scopedLimiter_fst {a : Arrival} {s s' : S}
    (h : (strategy.consume ⟨a.req.defaultKeyGen, cost.getD 1, a.nowMs⟩ s).1
      = (strategy.consume ⟨a.req.defaultKeyGen, cost.getD 1, a.nowMs⟩ s').1) :
    (scopedLimiter strategy cost a s).1 = (scopedLimiter strategy cost a s').1 := by
  simp only [scopedLimiter, rateLimiter, Option.getD_none, h]
  split <;> rfl

variable {bucket : S → String → Option C}

/-- Through the middleware, a request touches the bucket of its key only. -/
theorem cellwise_scopedLimiter (h : Cellwise strategy.consume bucket Consume.key) :
    Cellwise (scopedLimiter strategy cost) bucket fun a => a.req.defaultKeyGen where
  other a s k hk := by
    rw [scopedLimiter_snd]
    exact h.other _ s k hk
  answer a s s' hs := scopedLimiter_fst cost (h.answer _ s s' hs)
  own a s s' hs := by
    rw [scopedLimiter_snd, scopedLimiter_snd]
    exact h.own ⟨a.req.defaultKeyGen, cost.getD 1, a.nowMs⟩ s s' hs

/-- Among clients that are told apart, one gets what it gets alone. -/
theorem decisions_eq (h : Cellwise strategy.consume bucket Consume.key) (s : S)
    (client : Option String × Option String × String) {arrivals : List Arrival}
    (happart : ∀ a ∈ arrivals, ∀ a' ∈ arrivals, a.req.ToldApart a'.req) :
    decisions strategy cost s client arrivals
      = answers (scopedLimiter strategy cost) s
          (arrivals.filter fun a => a.req.client = client) := by
  have hmem : ∀ p ∈ answers (scopedLimiter strategy cost) s arrivals, p.1 ∈ arrivals := by
    intro p hp
    rw [← map_fst_answers s arrivals]
    exact List.mem_map_of_mem hp
  -- One of the client's requests has its key; without one, there is nothing to answer.
  by_cases hnone : ∃ a₀ ∈ arrivals, a₀.req.client = client
  · obtain ⟨a₀, ha₀, hclient⟩ := hnone
    have hkey : ∀ a ∈ arrivals,
        a.req.client = client ↔ a.req.defaultKeyGen = a₀.req.defaultKeyGen := by
      intro a ha
      rw [ClientRequest.defaultKeyGen_eq_iff, ← hclient]
      exact ⟨ClientRequest.pieces_congr,
        fun hp => (happart a ha a₀ ha₀).resolve_right (not_not.2 hp)⟩
    have hkeyed := ((cellwise_scopedLimiter cost h).filter a₀.req.defaultKeyGen arrivals
      (s := s) rfl).1
    unfold decisions
    rw [List.filter_congr fun p hp => decide_eq_decide.2 (hkey p.1 (hmem p hp)),
      List.filter_congr fun a ha => decide_eq_decide.2 (hkey a ha)]
    exact hkeyed
  · push Not at hnone
    unfold decisions
    rw [List.filter_eq_nil_iff.2 fun p hp => by simpa using hnone p.1 (hmem p hp),
      List.filter_eq_nil_iff.2 fun a ha => by simpa using hnone a ha]
    rfl

/-- Two share a bucket where they have one key. -/
theorem sharesBucket_iff (h : Cellwise strategy.consume bucket Consume.key)
    (hwrites : ∀ call s, (bucket (strategy.consume call s).2 call.key).isSome) {s₀ : S}
    (hempty : ∀ key, bucket s₀ key = none) (a a' : Arrival) :
    SharesBucket strategy cost bucket s₀ a a' ↔ a.req.pieces = a'.req.pieces := by
  rw [← ClientRequest.defaultKeyGen_eq_iff, SharesBucket]
  refine ⟨fun hshare => ?_, fun hkey => ?_⟩
  · by_contra hne
    rw [(cellwise_scopedLimiter cost h).other a s₀ a'.req.defaultKeyGen hne, hempty] at hshare
    cases hshare
  · rw [scopedLimiter_snd, ← hkey]
    exact hwrites ⟨a.req.defaultKeyGen, cost.getD 1, a.nowMs⟩ s₀

theorem scopes (h : Cellwise strategy.consume bucket Consume.key)
    (hwrites : ∀ call s, (bucket (strategy.consume call s).2 call.key).isSome) {s₀ : S}
    (hempty : ∀ key, bucket s₀ key = none) : Scopes strategy cost bucket s₀ where
  shares_iff a a' := by
    rw [sharesBucket_iff cost h hwrites hempty, ClientRequest.ToldApart]
    constructor
    · intro hiff
      by_cases hp : a.req.pieces = a'.req.pieces
      · exact .inl (hiff.1 hp)
      · exact .inr hp
    · rintro (hclient | hp)
      · exact iff_of_true (ClientRequest.pieces_congr hclient) hclient
      · exact iff_of_false hp fun hclient => hp (ClientRequest.pieces_congr hclient)
  isolated s client arrivals arrivals' happart happart' heq := by
    rw [decisions_eq cost h s client happart, decisions_eq cost h s client happart', heq]

end Limiter

/-- Both strategies scope what the default keys tell apart. -/
theorem rate_limits_scoped_iff (options : TokenBucketOptions) (cost : Option ℚ) :
    Scopes (inMemoryTokenBucketStrategy options) cost (fun buckets key => buckets key)
        (fun _ => none)
      ∧ Scopes (redisTokenBucketStrategy options) cost
        (fun redis key => redis (RedisTokenBucketStrategy.redisKey key)) (fun _ => none) := by
  constructor
  · refine scopes cost (cellwise_inMemory options) (fun call s => ?_) fun _ => rfl
    simp only [inMemoryTokenBucketStrategy, InMemoryTokenBucketStrategy.consume]
    split <;> simp
  · refine scopes cost (cellwise_redis options) (fun call s => ?_) fun _ => rfl
    simp [redisTokenBucketStrategy, RedisTokenBucketStrategy.consume]

/-- The arrival, at time zero, of a request for the events. -/
def arrivalFrom (forwarded userId : String) : Arrival where
  req := ⟨some (.one forwarded), some (.one userId), none, "/api", "/events"⟩
  nowMs := 0
  dateNow := 0

/-- What they get from a limiter with room for one. -/
def outcomes (client : Option String × Option String × String) (arrivals : List Arrival) :
    List RateLimiterOutcome :=
  (decisions (inMemoryTokenBucketStrategy ⟨1, 1⟩) none (fun _ => none) client arrivals).map Prod.snd

/-- A user with a colon in its id shares a bucket with a user of another IPv6 address, who is turned
away once the first has had what there is. -/
theorem colons_share_a_bucket :
    (arrivalFrom "::1" "7:8").req.client ≠ (arrivalFrom "::1:7" "8").req.client
      ∧ SharesBucket (inMemoryTokenBucketStrategy ⟨1, 1⟩) none (fun buckets key => buckets key)
        (fun _ => none) (arrivalFrom "::1" "7:8") (arrivalFrom "::1:7" "8")
      ∧ outcomes (arrivalFrom "::1:7" "8").req.client
          [arrivalFrom "::1" "7:8", arrivalFrom "::1:7" "8"]
        ≠ outcomes (arrivalFrom "::1:7" "8").req.client [arrivalFrom "::1:7" "8"] := by
  unfold SharesBucket
  decide +kernel

end LaunchPad
