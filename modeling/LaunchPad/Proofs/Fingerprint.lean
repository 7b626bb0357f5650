import LaunchPad.Proofs.Idempotency
import LaunchPad.Proofs.Stringify

/-!
# The request fingerprint

A document says what its objects have by name, in no order. What is hashed of it keeps the order in
which they come, so it is the same for two documents that say the same only if they have the same
order. It has doubles for the numbers, and null for those that are too large. Where two documents do
not differ in these ways only, the texts hashed for them are equal if and only if they say the same.
-/

namespace LaunchPad

open Interleave

/-- What a document says. -/
inductive JsonValue
  | null
  | bool (b : Bool)
  | number (x : JsNumber)
  | string (s : JsString)
  | array (elements : List JsonValue)
  | object (member : JsString → Option JsonValue)

namespace Json

mutual

def meaning : Json → JsonValue
  | .null => .null
  | .bool b => .bool b
  | .number x => .number x
  | .string s => .string s
  | .array elements => .array (elementMeanings elements)
  | .object members => .object (memberMeaning members)

def elementMeanings : List Json → List JsonValue
  | [] => []
  | x :: xs => meaning x :: elementMeanings xs

/-- What the last of the members with this name says. -/
def memberMeaning : List (JsString × Json) → JsString → Option JsonValue
  | [], _ => none
  | (name, x) :: members, key =>
    (memberMeaning members key).or (if name = key then some (meaning x) else none)

end

theorem memberMeaning_eq (ms : List (JsString × Json)) (key : JsString) :
    memberMeaning ms key = (Members.lastOf key ms).map meaning := by
  induction ms with
  | nil => rfl
  | cons m ms ih =>
    rw [memberMeaning, Members.lastOf, ih]
    cases Members.lastOf key ms with
    | some x => rfl
    | none =>
      rw [Option.map_none, Option.none_or, Option.none_or]
      split_ifs <;> rfl

theorem memberMeaning_eq_none {ms : List (JsString × Json)} {key : JsString}
    (h : key ∉ ms.map Prod.fst) : memberMeaning ms key = none := by
  rw [memberMeaning_eq, Members.lastOf_eq_none h, Option.map_none]

/-! ## `JSON.parse` keeps what is said, but for the numbers -/

variable {toDouble : JsNumber → JsNumber}

mutual

theorem meaning_visited : ∀ x : Json, meaning (visited x) = meaning x
  | .null => rfl
  | .bool b => rfl
  | .number n => rfl
  | .string s => rfl
  | .array xs => by rw [visited, meaning, meaning, elementMeanings_visited xs]
  | .object ms => by
    rw [visited, meaning, meaning]
    refine congrArg _ (funext fun key => ?_)
    rw [memberMeaning_eq, Members.lastOf_arranged_create, ← memberMeaning_eq,
      memberMeaning_visited ms]

theorem elementMeanings_visited : ∀ xs : List Json,
    elementMeanings (visitedElements xs) = elementMeanings xs
  | [] => rfl
  | x :: xs => by
    rw [visitedElements, elementMeanings, elementMeanings, meaning_visited x,
      elementMeanings_visited xs]

theorem memberMeaning_visited : ∀ (ms : List (JsString × Json)) (key : JsString),
    memberMeaning (visitedMembers ms) key = memberMeaning ms key
  | [], _ => rfl
  | (name, x) :: ms, key => by
    rw [visitedMembers, memberMeaning, memberMeaning, memberMeaning_visited ms, meaning_visited x]

end

theorem roundedMembers_eq_mapValues (ms : List (JsString × Json)) :
    roundedMembers toDouble ms = Members.mapValues (rounded toDouble) ms := by
  induction ms with
  | nil => rfl
  | cons m ms ih =>
    rw [roundedMembers, ih]
    rfl

mutual

/-- What a document says once it is rounded depends on what it says only. -/
theorem meaning_rounded : ∀ x y : Json, meaning x = meaning y →
    meaning (rounded toDouble x) = meaning (rounded toDouble y)
  | .null, y, hm => by cases y <;> cases hm; rfl
  | .bool b, y, hm => by cases y <;> cases hm; rfl
  | .number n, y, hm => by cases y <;> cases hm; rfl
  | .string s, y, hm => by cases y <;> cases hm; rfl
  | .array xs, y, hm => by
    cases y with
    | array ys =>
      rw [rounded, rounded, meaning, meaning,
        elementMeanings_rounded xs ys (JsonValue.array.inj hm)]
    | _ => cases hm
  | .object ms, y, hm => by
    cases y with
    | object ms' =>
      rw [rounded, rounded, meaning, meaning]
      refine congrArg _ (funext fun key => ?_)
      have hkey := congrFun (JsonValue.object.inj hm) key
      rw [memberMeaning_eq, memberMeaning_eq] at hkey
      rw [memberMeaning_eq, memberMeaning_eq, roundedMembers_eq_mapValues,
        roundedMembers_eq_mapValues, Members.lastOf_mapValues, Members.lastOf_mapValues]
      rcases hlast : Members.lastOf key ms with _ | x <;>
        rcases hlast' : Members.lastOf key ms' with _ | x' <;> rw [hlast, hlast'] at hkey
      · cases hkey
      · cases hkey
      · exact congrArg some
          (memberMeanings_rounded ms (key, x) (Members.mem_of_lastOf hlast) x'
            (Option.some.inj hkey))
    | _ => cases hm

theorem elementMeanings_rounded : ∀ xs ys : List Json, elementMeanings xs = elementMeanings ys →
    elementMeanings (roundedElements toDouble xs) = elementMeanings (roundedElements toDouble ys)
  | [], [], _ => rfl
  | [], _ :: _, hm => by cases hm
  | _ :: _, [], hm => by cases hm
  | x :: xs, y :: ys, hm => by
    obtain ⟨hmx, hmxs⟩ := List.cons.inj hm
    rw [roundedElements, roundedElements, elementMeanings, elementMeanings, meaning_rounded x y hmx,
      elementMeanings_rounded xs ys hmxs]

theorem memberMeanings_rounded : ∀ ms : List (JsString × Json), ∀ m ∈ ms, ∀ y,
    meaning m.2 = meaning y → meaning (rounded toDouble m.2) = meaning (rounded toDouble y)
  | [], _, h => by cases h
  | (name, x) :: ms, m, h => by
    rcases List.mem_cons.1 h with rfl | h
    · exact meaning_rounded x
    · exact memberMeanings_rounded ms m h

end

/-- No object has a name twice. -/
inductive Distinct : Json → Prop
  | null : Distinct .null
  | bool (b : Bool) : Distinct (.bool b)
  | number (x : JsNumber) : Distinct (.number x)
  | string (s : JsString) : Distinct (.string s)
  | array {xs : List Json} (h : ∀ x ∈ xs, Distinct x) : Distinct (.array xs)
  | object {ms : List (JsString × Json)} (hnodup : (ms.map Prod.fst).Nodup)
      (h : ∀ m ∈ ms, Distinct m.2) : Distinct (.object ms)

mutual

theorem distinct_visited : ∀ x : Json, Distinct (visited x)
  | .null => .null
  | .bool b => .bool b
  | .number n => .number n
  | .string s => .string s
  | .array xs => .array (distinct_visitedElements xs)
  | .object ms =>
    .object (Members.nodup_arranged_create arrayIndex _) fun m hm =>
      distinct_visitedMembers ms m
        (Members.mem_of_mem_create ((Members.arranged_perm arrayIndex _).mem_iff.1 hm))

theorem distinct_visitedElements : ∀ xs : List Json, ∀ x ∈ visitedElements xs, Distinct x
  | [], _, hx => by cases hx
  | x :: xs, y, hy => by
    rcases List.mem_cons.1 hy with h | h
    · exact h ▸ distinct_visited x
    · exact distinct_visitedElements xs y h

theorem distinct_visitedMembers : ∀ ms : List (JsString × Json), ∀ m ∈ visitedMembers ms,
    Distinct m.2
  | [], _, hm => by cases hm
  | (name, x) :: ms, m, hm => by
    rcases List.mem_cons.1 hm with h | h
    · exact h ▸ distinct_visited x
    · exact distinct_visitedMembers ms m h

end

/-! ## What is said, and the order it is said in -/

theorem Distinct.elements {xs : List Json} (h : Distinct (.array xs)) : ∀ x ∈ xs, Distinct x := by
  cases h with
  | array h => exact h

theorem Distinct.members {ms : List (JsString × Json)} (h : Distinct (.object ms)) :
    (ms.map Prod.fst).Nodup ∧ ∀ m ∈ ms, Distinct m.2 := by
  cases h with
  | object hnodup h => exact ⟨hnodup, h⟩

/-- The first member says the same, and so do the others. -/
theorem memberMeaning_cons_inj {name : JsString} {x x' : Json} {ms ms' : List (JsString × Json)}
    (hms : name ∉ ms.map Prod.fst) (hms' : name ∉ ms'.map Prod.fst)
    (h : memberMeaning ((name, x) :: ms) = memberMeaning ((name, x') :: ms')) :
    meaning x = meaning x' ∧ memberMeaning ms = memberMeaning ms' := by
  have hkey := fun key => congrFun h key
  simp only [memberMeaning] at hkey
  refine ⟨?_, funext fun key => ?_⟩
  · have hname := hkey name
    rw [memberMeaning_eq_none hms, memberMeaning_eq_none hms', if_pos rfl, if_pos rfl,
      Option.none_or, Option.none_or] at hname
    exact Option.some.inj hname
  · by_cases hk : name = key
    · rw [← hk, memberMeaning_eq_none hms, memberMeaning_eq_none hms']
    · have := hkey key
      rwa [if_neg hk, if_neg hk, Option.or_none, Option.or_none] at this

mutual

/-- Values that say the same and are written alike are the same, infinite numbers included. -/
theorem eq_of_meaning_eq : ∀ x y : Json, Distinct x → Distinct y → nulled x = nulled y →
    meaning x = meaning y → x = y
  | .null, y, _, _, _, hm => by cases y <;> cases hm; rfl
  | .bool b, y, _, _, _, hm => by cases y <;> cases hm; rfl
  | .number n, y, _, _, _, hm => by cases y <;> cases hm; rfl
  | .string s, y, _, _, _, hm => by cases y <;> cases hm; rfl
  | .array xs, y, hx, hy, hn, hm => by
    cases y with
    | array ys =>
      rw [elements_eq_of_meaning_eq xs ys hx.elements hy.elements (Json.array.inj hn)
        (JsonValue.array.inj hm)]
    | _ => cases hm
  | .object ms, y, hx, hy, hn, hm => by
    cases y with
    | object ms' =>
      rw [members_eq_of_meaning_eq ms ms' hx.members hy.members (Json.object.inj hn)
        (JsonValue.object.inj hm)]
    | _ => cases hm

theorem elements_eq_of_meaning_eq : ∀ xs ys : List Json, (∀ x ∈ xs, Distinct x) →
    (∀ y ∈ ys, Distinct y) → nulledElements xs = nulledElements ys →
    elementMeanings xs = elementMeanings ys → xs = ys
  | [], [], _, _, _, _ => rfl
  | [], _ :: _, _, _, _, hm => by cases hm
  | _ :: _, [], _, _, _, hm => by cases hm
  | x :: xs, y :: ys, hx, hy, hn, hm => by
    obtain ⟨hnx, hnxs⟩ := List.cons.inj hn
    obtain ⟨hmx, hmxs⟩ := List.cons.inj hm
    rw [eq_of_meaning_eq x y (hx x List.mem_cons_self) (hy y List.mem_cons_self) hnx hmx,
      elements_eq_of_meaning_eq xs ys (fun z hz => hx z (List.mem_cons_of_mem x hz))
        (fun z hz => hy z (List.mem_cons_of_mem y hz)) hnxs hmxs]

theorem members_eq_of_meaning_eq : ∀ ms ms' : List (JsString × Json),
    ((ms.map Prod.fst).Nodup ∧ ∀ m ∈ ms, Distinct m.2) →
    ((ms'.map Prod.fst).Nodup ∧ ∀ m ∈ ms', Distinct m.2) → nulledMembers ms = nulledMembers ms' →
    memberMeaning ms = memberMeaning ms' → ms = ms'
  | [], [], _, _, _, _ => rfl
  | [], _ :: _, _, _, hn, _ => by cases hn
  | _ :: _, [], _, _, hn, _ => by cases hn
  | (name, x) :: ms, (name', x') :: ms', ⟨hnodup, hd⟩, ⟨hnodup', hd'⟩, hn, hm => by
    obtain ⟨hfirst, hrest⟩ := List.cons.inj hn
    obtain ⟨rfl, hnx⟩ := Prod.mk.inj hfirst
    obtain ⟨hname, hms⟩ := List.nodup_cons.1 hnodup
    obtain ⟨hname', hms'⟩ := List.nodup_cons.1 hnodup'
    obtain ⟨hmx, hmms⟩ := memberMeaning_cons_inj hname hname' hm
    rw [eq_of_meaning_eq x x' (hd _ List.mem_cons_self) (hd' _ List.mem_cons_self) hnx hmx,
      members_eq_of_meaning_eq ms ms' ⟨hms, fun m hm => hd m (List.mem_cons_of_mem _ hm)⟩
        ⟨hms', fun m hm => hd' m (List.mem_cons_of_mem _ hm)⟩ hrest hmms]

end

/-! ## What is hashed -/

/-- If the documents say the same, `JSON.parse` makes the same of them, with the members of each
object in the same order; if it makes the same of them, they have no different numbers next to one
double; and they do not differ in what stands for a number that is not finite only. -/
structure ToldApart (toDouble : JsNumber → JsNumber) (x y : Json) : Prop where
  order : meaning x = meaning y → parse toDouble x = parse toDouble y
  exact : parse toDouble x = parse toDouble y → meaning x = meaning y
  finite : nulled (parse toDouble x) = nulled (parse toDouble y) →
    parse toDouble x = parse toDouble y

end Json

theorem canonicalBody_eq_iff (toDouble : JsNumber → JsNumber) (b b' : JsonBody) :
    b.canonicalBody toDouble = b'.canonicalBody toDouble
      ↔ (b.doc.parse toDouble).nulled = (b'.doc.parse toDouble).nulled := by
  rw [JsonBody.canonicalBody, JsonBody.canonicalBody, String.ofList_inj, Json.stringify_eq_iff]

/-- The texts that are hashed are equal as the documents are, where these are told apart, and only
there. -/
theorem canonicalBody_faithful_iff (toDouble : JsNumber → JsNumber) (b b' : JsonBody) :
    (b.canonicalBody toDouble = b'.canonicalBody toDouble ↔ b.doc.meaning = b'.doc.meaning)
      ↔ b.doc.ToldApart toDouble b'.doc := by
  rw [canonicalBody_eq_iff]
  constructor
  · intro h
    -- Documents that say the same and are written alike have the same order.
    have heq : b.doc.meaning = b'.doc.meaning → b.doc.parse toDouble = b'.doc.parse toDouble :=
      fun hm => Json.eq_of_meaning_eq _ _ (Json.distinct_visited _) (Json.distinct_visited _)
        (h.2 hm) (by
          rw [Json.parse, Json.parse, Json.meaning_visited, Json.meaning_visited,
            Json.meaning_rounded _ _ hm])
    exact ⟨heq, fun hp => h.1 (congrArg Json.nulled hp), fun hn => heq (h.1 hn)⟩
  · rintro ⟨horder, hexact, hfinite⟩
    exact ⟨fun hn => hexact (hfinite hn), fun hm => by rw [horder hm]⟩

/-! ## Requests with bodies -/

section Requests

variable {τ β : Type}

/-- A request with a document for its body comes in, or time passes. -/
inductive JsonCall (β : Type)
  | request (env : RequestEnv β) (retries : ℕ) (req : HttpRequest) (b : JsonBody)
  | tick (ms : ℕ)

def JsonCall.httpCall (toDouble : JsNumber → JsNumber) : JsonCall β → HttpCall β
  | .request env retries req b =>
    .request env retries { req with body := some (b.canonicalBody toDouble) }
  | .tick ms => .tick ms

/-- The two are requests whose documents say the same and are told apart. -/
def JsonCall.Repeats (toDouble : JsNumber → JsNumber) : JsonCall β → JsonCall β → Prop
  | .request _ _ _ b, .request _ _ _ b' =>
    b.doc.meaning = b'.doc.meaning ∧ b.doc.ToldApart toDouble b'.doc
  | _, _ => False

variable [DecidableEq τ]

/-- In every run, a request is refused for its payload only if one with its key does not repeat
it. -/
def RefusesOthersOnly (toDouble : JsNumber → JsNumber) (sha256 : String → String)
    (calls : τ → JsonCall β) : Prop :=
  ∀ is c t, (httpCalls sha256 fun t => (calls t).httpCall toDouble).runSchedule is = some c →
    (c.thread t).result = some (.ok (some payloadMismatch)) →
    ∃ u, ((calls u).httpCall toDouble).key = ((calls t).httpCall toDouble).key
      ∧ ¬(calls u).Repeats toDouble (calls t)

theorem JsonCall.Repeats.canonicalBody_eq {toDouble : JsNumber → JsNumber} {call call' : JsonCall β}
    (h : call.Repeats toDouble call') :
    (call.httpCall toDouble).canonicalBody = (call'.httpCall toDouble).canonicalBody := by
  rcases call with ⟨env, retries, req, b⟩ | ms
  · rcases call' with ⟨env', retries', req', b'⟩ | ms
    · exact ((canonicalBody_faithful_iff toDouble b b').2 h.2).2 h.1
    · cases h
  · cases h

theorem refusesOthersOnly (toDouble : JsNumber → JsNumber) (sha256 : String → String)
    (calls : τ → JsonCall β) : RefusesOthersOnly toDouble sha256 calls := by
  intro is c t hrun hresult
  obtain ⟨u, hkey, hhash⟩ :=
    mismatched_of_refused (Config.reach_of_runSchedule is hrun) hresult
  exact ⟨u, hkey, fun h => hhash (congrArg sha256 h.canonicalBody_eq)⟩

/-- The fingerprint is canonical for documents that are told apart, and for no others; and a request
that repeats the others with its key is not refused for its payload. -/
theorem fingerprint_canonical_iff (toDouble : JsNumber → JsNumber) (sha256 : String → String)
    (calls : τ → JsonCall β) :
    (∀ b b' : JsonBody,
      (b.canonicalBody toDouble = b'.canonicalBody toDouble ↔ b.doc.meaning = b'.doc.meaning)
        ↔ b.doc.ToldApart toDouble b'.doc) ∧ RefusesOthersOnly toDouble sha256 calls :=
  ⟨canonicalBody_faithful_iff toDouble, refusesOthersOnly toDouble sha256 calls⟩

end Requests

/-- Two members, a 1 and a 2. -/
def twoMembers (name name' : Char) (s s' : Significand) : JsonBody where
  doc := .object [([.char name], .number (.finite false s 1)),
    ([.char name'], .number (.finite false s' 1))]
  strict := rfl

def digitOne : Significand := ⟨1, Nat.one_ne_zero⟩

def digitTwo : Significand := ⟨2, Nat.succ_ne_zero 1⟩

def sentBody : JsonBody := twoMembers 'a' 'b' digitOne digitTwo

def resentBody : JsonBody := twoMembers 'b' 'a' digitTwo digitOne

/-- SHA-256 of the two bodies. -/
def reorderedSha256 (s : String) : String :=
  if s = "\x7b\"a\":1,\"b\":2\x7d" then
    "43258cff783fe7036d8a43033f830adfc60ec037382473548ac742b888292777"
  else "3fb75453225c732a76b7899ea2096dda1455189c89817239732182f73fe5a09f"

/-- The same request twice, with the members of its body in another order the second time. -/
def reorderedCalls (again : Bool) : JsonCall String :=
  .request ⟨fun _ => .answered, fun _ => .answered, .answered, .answered, .finished 400 none⟩ 0
    ⟨some (.one "key-1"), none, "POST", "/api", "/events", none⟩
    (if again then resentBody else sentBody)

/-- The second request is refused, though its document says the same. -/
theorem reordered_members_refused :
    sentBody.doc.meaning = resentBody.doc.meaning
      ∧ sentBody.canonicalBody id ≠ resentBody.canonicalBody id
      ∧ ((httpCalls reorderedSha256 fun t => (reorderedCalls t).httpCall id).runSchedule
          [false, false, true, true, true]).bind (fun c => (c.thread true).result)
        = some (.ok (some payloadMismatch)) := by
  refine ⟨congrArg JsonValue.object (funext fun key => ?_), by decide +kernel, by decide +kernel⟩
  have hne : [CodePoint.char 'a'] ≠ [CodePoint.char 'b'] := by decide
  by_cases ha : [CodePoint.char 'a'] = key
  · subst ha
    simp [Json.memberMeaning, hne.symm]
  · simp [Json.memberMeaning, ha]

end LaunchPad
