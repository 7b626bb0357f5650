import LaunchPad.EventText
import LaunchPad.Proofs.EventFacts
import LaunchPad.Proofs.JsonReader

/-!
# Events survive their texts

`deserialize` sees what `JSON.stringify` wrote with null for its numbers that are not finite, so it
refuses an event whose version or whose payload is one (`Accepted.check_nulled`). An event that is
built of strings and integers comes back as it was.
-/

namespace LaunchPad

open Json EventSerializer

variable {toDouble : JsNumber → JsNumber} {x : Json} {name : String}

/-! ## Null for numbers that are not finite -/

section Nulled

mutual

/-- A value whose numbers are finite is written as it is. -/
theorem Json.nulled_eq_self_iff : ∀ x : Json, nulled x = x ↔ ∀ m ∈ x.numbers, m.isFinite = true
  | .null => by simp [nulled, numbers]
  | .bool b => by simp [nulled, numbers]
  | .string s => by simp [nulled, numbers]
  | .number m => by
    rw [nulled, numbers]
    split_ifs with hm <;> simp [hm]
  | .array xs => by
    rw [nulled, numbers, Json.array.injEq]
    exact Json.nulledElements_eq_self_iff xs
  | .object ms => by
    rw [nulled, numbers, Json.object.injEq]
    exact Json.nulledMembers_eq_self_iff ms

theorem Json.nulledElements_eq_self_iff : ∀ xs : List Json,
    nulledElements xs = xs ↔ ∀ m ∈ elementNumbers xs, m.isFinite = true
  | [] => by simp [nulledElements, elementNumbers]
  | x :: xs => by
    rw [nulledElements, elementNumbers, List.cons.injEq, Json.nulled_eq_self_iff x,
      Json.nulledElements_eq_self_iff xs, List.forall_mem_append]

theorem Json.nulledMembers_eq_self_iff : ∀ ms : List (JsString × Json),
    nulledMembers ms = ms ↔ ∀ m ∈ memberNumbers ms, m.isFinite = true
  | [] => by simp [nulledMembers, memberNumbers]
  | (name, x) :: ms => by
    rw [nulledMembers, memberNumbers, List.cons.injEq, Prod.mk.injEq, Json.nulled_eq_self_iff x,
      Json.nulledMembers_eq_self_iff ms, List.forall_mem_append]
    simp

end

/-- A number that is not finite. -/
def Json.isNotFinite : Option Json → Bool
  | some (.number m) => !m.isFinite
  | _ => false

theorem Json.property_nulled (name : String) (x : Json) :
    (nulled x).property name = (x.property name).map nulled := by
  cases x with
  | object ms =>
    rw [nulled, property, property, nulledMembers_eq_mapValues, Members.lastOf_mapValues]
  | number m =>
    rw [nulled]
    split_ifs <;> rfl
  | _ => rfl

theorem Json.nulled_number_cases (m : JsNumber) :
    (isNotFinite (some (.number m)) = true ∧ nulled (.number m) = .null)
      ∨ (isNotFinite (some (.number m)) = false ∧ nulled (.number m) = .number m) := by
  cases m with
  | infinite | nan => exact .inl ⟨rfl, rfl⟩
  | _ => exact .inr ⟨rfl, rfl⟩

theorem Json.isNonemptyString_nulled (o : Option Json) :
    isNonemptyString (o.map nulled) = isNonemptyString o := by
  rcases o with _ | x
  · rfl
  cases x with
  | number m =>
    rcases nulled_number_cases m with ⟨-, h⟩ | ⟨-, h⟩
    · rw [Option.map_some, h]
      rfl
    · rw [Option.map_some, h]
  | _ => rfl

theorem Json.isVersion_nulled {o : Option Json} (h : isVersion o = true) :
    isVersion (o.map nulled) = !isNotFinite o := by
  rcases o with _ | x
  · cases h
  cases x with
  | number m =>
    rcases nulled_number_cases m with ⟨hi, hn⟩ | ⟨hi, hn⟩ <;> rw [Option.map_some, hn, hi]
    · rfl
    · rw [h]
      rfl
  | _ => cases h

theorem Json.isNullish_nulled {o : Option Json} (h : isNullish o = false) :
    isNullish (o.map nulled) = isNotFinite o := by
  rcases o with _ | x
  · cases h
  cases x with
  | null => cases h
  | number m =>
    rcases nulled_number_cases m with ⟨hi, hn⟩ | ⟨hi, hn⟩ <;> rw [Option.map_some, hn, hi] <;> rfl
  | _ => rfl

theorem Json.isContainer_nulled (x : Json) : (nulled x).isContainer = x.isContainer := by
  cases x with
  | number m =>
    rcases nulled_number_cases m with ⟨-, h⟩ | ⟨-, h⟩
    · rw [h]
      rfl
    · rw [h]
  | _ => rfl

end Nulled

/-! ## What the checks accept -/

section Checks

/-- An envelope that passes the checks. -/
structure Accepted (event : Json) : Prop where
  container : event.isContainer = true
  eventId : isNonemptyString (event.property "eventId") = true
  eventType : isNonemptyString (event.property "eventType") = true
  aggregateId : isNonemptyString (event.property "aggregateId") = true
  version : isVersion (event.property "version") = true
  occurredAt : isNonemptyString (event.property "occurredAt") = true
  producer : isNonemptyString (event.property "producer") = true
  data : isNullish (event.property "data") = false

variable {event event' : Json}

theorem Accepted.check (h : Accepted event) : checkEnvelope event = .ok event := by
  simp [checkEnvelope, h.container, h.eventId, h.eventType, h.aggregateId, h.version, h.occurredAt,
    h.producer, h.data]

theorem accepted_of_check (h : checkEnvelope event = .ok event') :
    event' = event ∧ Accepted event := by
  unfold checkEnvelope at h
  split_ifs at h with h₁ h₂ h₃ h₄ h₅ h₆ h₇ h₈
  refine ⟨(Except.ok.inj h).symm, ?_⟩
  simp only [Bool.not_eq_true', Bool.not_eq_false, Bool.not_eq_true] at *
  exact ⟨h₁, h₂, h₃, h₄, h₅, h₆, h₇, h₈⟩

/-- Written and read again, an accepted event is refused where its version or its payload is a
number that is not finite. -/
theorem Accepted.check_nulled (h : Accepted event) :
    checkEnvelope event.nulled
      = if isNotFinite (event.property "version") then
          .error "Invalid or missing version in event envelope"
        else if isNotFinite (event.property "data") then
          .error "Invalid or missing data payload in event envelope"
        else .ok event.nulled := by
  unfold checkEnvelope
  simp only [property_nulled, isContainer_nulled, isNonemptyString_nulled, h.container, h.eventId,
    h.eventType, h.aggregateId, h.occurredAt, h.producer, isVersion_nulled h.version,
    isNullish_nulled h.data, Bool.not_true, Bool.not_not, Bool.false_eq_true, if_false]

/-- It comes back as it was just if its numbers are finite. -/
theorem Accepted.check_nulled_iff (h : Accepted event) :
    checkEnvelope event.nulled = .ok event ↔ ∀ m ∈ event.numbers, m.isFinite = true := by
  constructor
  · intro hok
    exact (nulled_eq_self_iff event).1 (accepted_of_check hok).1.symm
  · intro hfin
    rw [(nulled_eq_self_iff event).2 hfin, h.check]

end Checks

/-! ## Values built of members -/

section Objects

/-- A value that the program can have built, with no halves of pairs next to each other. -/
structure WellMade (x : Json) : Prop where
  visited : x.visited = x
  joined : ∀ s ∈ x.strings, JsString.joined s = s

theorem joined_ofChars (cs : List Char) : JsString.joined (.ofChars cs) = .ofChars cs := by
  induction cs with
  | nil => rfl
  | cons c cs ih =>
    change JsString.joined (.char c :: JsString.ofChars cs) = _
    rw [joined_cons, ih]
    rfl

theorem wellMade_ofString (s : String) : WellMade (.ofString s) :=
  ⟨rfl, fun t ht => by rw [List.mem_singleton.1 ht]; exact joined_ofChars _⟩

theorem wellMade_ofInt (z : ℤ) : WellMade (.ofInt z) := ⟨rfl, nofun⟩

/-- A name that is not made of digits only. -/
theorem arrayIndex_eq_none {name : String} (h : (name.toList.any fun c => !c.isDigit) = true) :
    arrayIndex (.ofString name) = none := by
  obtain ⟨c, hc, hdigit⟩ := List.any_eq_true.1 h
  unfold arrayIndex
  simp only
  split_ifs with hindex
  · rw [JsString.ofString, JsString.ofChars] at hindex
    have hchars := List.map_injective_iff.2 (fun _ _ h => CodePoint.char.inj h) hindex.1
    rw [hchars] at hc
    rw [Text.isDigit_of_mem_repr hc] at hdigit
    cases hdigit
  · rfl

/-- None of these names is made of digits only. -/
def notIndices (names : List String) : Bool :=
  names.all fun name => name.toList.any fun c => !c.isDigit

theorem visitedMembers_eq_self {ms : List (JsString × Json)} (h : ∀ m ∈ ms, m.2.visited = m.2) :
    visitedMembers ms = ms := by
  have hid : ∀ m ∈ ms, (m.1, m.2.visited) = id m := fun m hm => Prod.ext rfl (h m hm)
  rw [visitedMembers_eq_mapValues, Members.mapValues, List.map_congr_left hid, List.map_id]

/-- An object with some of these names, in their order. -/
theorem wellMade_object {ms : List (JsString × Json)} (names : List String)
    (hsub : (ms.map Prod.fst).Sublist (names.map .ofString)) (hnodup : names.Nodup)
    (hindex : notIndices names = true)
    (hvalues : ∀ m ∈ ms, WellMade m.2) : WellMade (.object ms) := by
  have hname : ∀ m ∈ ms, ∃ name ∈ names, m.1 = .ofString name := fun m hm => by
    obtain ⟨name, hmem, he⟩ := List.mem_map.1 (hsub.subset (List.mem_map_of_mem hm))
    exact ⟨name, hmem, he.symm⟩
  have hinj : Function.Injective JsString.ofString := fun s t h =>
    String.toList_inj.1 (ofChars_injective h)
  have hms : (ms.map Prod.fst).Nodup := ((List.nodup_map_iff hinj).2 hnodup).sublist hsub
  constructor
  · rw [visited, visitedMembers_eq_self fun m hm => (hvalues m hm).visited,
      Members.create_of_nodup hms, Members.arranged_of_none]
    intro m hm
    obtain ⟨name, hmem, he⟩ := hname m hm
    rw [he]
    exact arrayIndex_eq_none (List.all_eq_true.1 hindex name hmem)
  · intro s hs
    obtain ⟨m, hm, rfl | hs⟩ := mem_memberStrings.1 hs
    · obtain ⟨name, -, he⟩ := hname m hm
      rw [he]
      exact joined_ofChars _
    · exact (hvalues m hm).joined s hs

theorem mem_defined {o : Option Json} {m : JsString × Json} :
    m ∈ defined name o ↔ ∃ y, o = some y ∧ m = (.ofString name, y) := by
  rcases o with _ | y
  · simp [defined]
  · simp [defined]

theorem defined_sublist (name : String) (o : Option Json) :
    ((defined name o).map Prod.fst).Sublist [JsString.ofString name] := by
  rcases o with _ | y
  · exact List.nil_sublist _
  · exact List.Sublist.refl _

theorem wellMade_metadata (m : EventMetadata) : WellMade m.toJson := by
  refine wellMade_object ["correlationId", "causationId", "idempotencyKey", "userId"] ?_ (by decide)
    (by decide +kernel) fun p hp => ?_
  · simp only [List.map_append]
    exact (((defined_sublist _ _).append (defined_sublist _ _)).append (defined_sublist _ _)).append
      (defined_sublist _ _)
  · simp only [List.mem_append, mem_defined, Option.map_eq_some_iff] at hp
    rcases hp with ((⟨y, ⟨s, -, rfl⟩, rfl⟩ | ⟨y, ⟨s, -, rfl⟩, rfl⟩) | ⟨y, ⟨s, -, rfl⟩, rfl⟩)
      | ⟨y, ⟨s, -, rfl⟩, rfl⟩ <;> exact wellMade_ofString s

theorem wellMade_members {p : OrderConfirmedPayloadV1} {m : JsString × Json} (hm : m ∈ p.members) :
    WellMade m.2 := by
  simp only [OrderConfirmedPayloadV1.members, List.mem_cons, List.not_mem_nil, or_false] at hm
  rcases hm with rfl | rfl | rfl | rfl | rfl | rfl | rfl | rfl | rfl
  all_goals first | exact wellMade_ofString _ | exact wellMade_ofInt _

/-- The names of the fields both versions have. -/
def payloadV1Names : List String :=
  ["orderId", "userId", "reservationId", "ticketTypeId", "quantity", "totalAmountCents", "currency",
    "confirmedAt", "providerTransactionId"]

theorem fst_members (p : OrderConfirmedPayloadV1) :
    p.members.map Prod.fst = payloadV1Names.map .ofString := rfl

theorem wellMade_payload (p : OrderConfirmedPayload) : WellMade p.toJson := by
  cases p with
  | v1 p =>
    refine wellMade_object payloadV1Names ?_ (by decide) (by decide +kernel) fun m hm =>
      wellMade_members hm
    rw [fst_members]
  | v2 p =>
    refine wellMade_object (payloadV1Names ++ ["customerEmail"] ++ ["ticketTierName"]) ?_ (by decide)
      (by decide +kernel) fun m hm => ?_
    · simp only [List.map_append, fst_members]
      exact ((List.Sublist.refl _).append (defined_sublist _ _)).append (defined_sublist _ _)
    · simp only [List.mem_append, mem_defined, Option.map_eq_some_iff] at hm
      rcases hm with (hm | ⟨y, ⟨s, -, rfl⟩, rfl⟩) | ⟨y, ⟨s, -, rfl⟩, rfl⟩
      · exact wellMade_members hm
      · exact wellMade_ofString s
      · exact wellMade_ofString s

end Objects

/-! ## Envelopes -/

section Envelopes

variable {D : Type} {dataJson : D → Json} {event : EventEnvelope D}

def envelopeNames : List String :=
  ["eventId", "eventType", "aggregateId", "version", "occurredAt", "producer"] ++ ["data"]
    ++ ["metadata"]

def envelopeMembers (dataJson : D → Json) (event : EventEnvelope D) : List (JsString × Json) :=
  [(.ofString "eventId", ofString event.eventId), (.ofString "eventType", ofString event.eventType),
      (.ofString "aggregateId", ofString event.aggregateId),
      (.ofString "version", ofInt event.rest.version),
      (.ofString "occurredAt", ofString event.rest.occurredAt),
      (.ofString "producer", ofString event.rest.producer)]
    ++ defined "data" (event.rest.data.map dataJson)
    ++ defined "metadata" (event.rest.metadata.map EventMetadata.toJson)

theorem envelope_sublist :
    ((envelopeMembers dataJson event).map Prod.fst).Sublist (envelopeNames.map .ofString) := by
  simp only [envelopeMembers, envelopeNames, List.map_append]
  exact ((List.Sublist.refl _).append (defined_sublist _ _)).append (defined_sublist _ _)

theorem wellMade_envelope (hdata : ∀ d, event.rest.data = some d → WellMade (dataJson d)) :
    WellMade (envelope dataJson event) := by
  refine wellMade_object envelopeNames envelope_sublist (by decide) (by decide +kernel) fun m hm => ?_
  simp only [List.mem_append, List.mem_cons, List.not_mem_nil, or_false, mem_defined,
    Option.map_eq_some_iff] at hm
  rcases hm with ((rfl | rfl | rfl | rfl | rfl | rfl) | ⟨y, ⟨d, hd, rfl⟩, rfl⟩)
    | ⟨y, ⟨metadata, -, rfl⟩, rfl⟩
  · exact wellMade_ofString _
  · exact wellMade_ofString _
  · exact wellMade_ofString _
  · exact wellMade_ofInt _
  · exact wellMade_ofString _
  · exact wellMade_ofString _
  · exact hdata d hd
  · exact wellMade_metadata metadata

/-- A member of the envelope is its property. -/
theorem property_envelope {y : Json} (h : (.ofString name, y) ∈ envelopeMembers dataJson event) :
    (envelope dataJson event).property name = some y := by
  have hinj : Function.Injective JsString.ofString := fun s t h =>
    String.toList_inj.1 (ofChars_injective h)
  have hnodup : (envelopeNames.map JsString.ofString).Nodup :=
    (List.nodup_map_iff hinj).2 (by decide)
  exact (Members.lastOf_eq_some_iff (hnodup.sublist envelope_sublist)).2 h

theorem isNonemptyString_ofString {s : String} (hs : s ≠ "") :
    isNonemptyString (some (ofString s)) = true := by
  have hne : JsString.ofString s ≠ [] := fun h =>
    hs (String.toList_inj.1 (List.map_eq_nil_iff.1 h))
  simp [isNonemptyString, ofString, hne]

theorem isVersion_ofInt {z : ℤ} (hz : 1 ≤ z) : isVersion (some (ofInt z)) = true := by
  have hne : z.natAbs ≠ 0 := by omega
  have hpos : ¬ z < 0 := by omega
  have hlen := length_repr_pos (z.natAbs.divMaxPow 10)
  simp only [isVersion, ofInt, JsNumber.ofInt, JsNumber.ofDecimal, dif_neg hne, JsNumber.ltOne,
    hpos, decide_false, Bool.false_or, Bool.not_eq_true', decide_eq_false_iff_not]
  omega

theorem isFinite_ofInt (z : ℤ) : (JsNumber.ofInt z).isFinite = true := by
  unfold JsNumber.ofInt JsNumber.ofDecimal
  split_ifs <;> rfl

theorem numbers_ofString {s : String} {m : JsNumber} : m ∉ (ofString s).numbers := nofun

theorem mem_numbers_envelope {m : JsNumber} (hm : m ∈ (envelope dataJson event).numbers) :
    m = .ofInt event.rest.version
      ∨ ∃ d, event.rest.data = some d ∧ m ∈ (dataJson d).numbers := by
  obtain ⟨p, hp, hm⟩ := mem_memberNumbers.1 hm
  simp only [List.mem_append, List.mem_cons, List.not_mem_nil, or_false, mem_defined,
    Option.map_eq_some_iff] at hp
  rcases hp with ((rfl | rfl | rfl | rfl | rfl | rfl) | ⟨y, ⟨d, hd, rfl⟩, rfl⟩)
    | ⟨y, ⟨metadata, -, rfl⟩, rfl⟩
  · exact absurd hm numbers_ofString
  · exact absurd hm numbers_ofString
  · exact absurd hm numbers_ofString
  · exact .inl (List.mem_singleton.1 hm)
  · exact absurd hm numbers_ofString
  · exact absurd hm numbers_ofString
  · exact .inr ⟨d, hd, hm⟩
  · obtain ⟨q, hq, hm⟩ := mem_memberNumbers.1 hm
    simp only [List.mem_append, mem_defined, Option.map_eq_some_iff] at hq
    rcases hq with ((⟨y, ⟨s, -, rfl⟩, rfl⟩ | ⟨y, ⟨s, -, rfl⟩, rfl⟩) | ⟨y, ⟨s, -, rfl⟩, rfl⟩)
      | ⟨y, ⟨s, -, rfl⟩, rfl⟩ <;> exact absurd hm numbers_ofString

/-- What `serialize` writes passes the checks of `deserialize`. -/
theorem accepted_of_serialize {stringify : EventEnvelope D → String} {text : String}
    (hnull : ∀ d, event.rest.data = some d → dataJson d ≠ .null)
    (h : serialize stringify event = .ok text) :
    Accepted (envelope dataJson event) ∧ text = stringify event := by
  unfold serialize at h
  split_ifs at h with h₁ h₂ h₃ h₄ h₅ h₆ h₇
  obtain ⟨d, hd⟩ := Option.ne_none_iff_exists'.1 fun hnone => h₇ (Option.isNone_iff_eq_none.2 hnone)
  have hdata : isNullish (some (dataJson d)) = false := by
    have := hnull d hd
    cases hj : dataJson d with
    | null => exact absurd hj this
    | _ => rfl
  have hversion : isVersion (some (ofInt event.rest.version)) = true := isVersion_ofInt (by omega)
  have hid : (envelope dataJson event).property "eventId" = some (ofString event.eventId) :=
    property_envelope (by simp [envelopeMembers])
  have htype : (envelope dataJson event).property "eventType" = some (ofString event.eventType) :=
    property_envelope (by simp [envelopeMembers])
  have haggregate : (envelope dataJson event).property "aggregateId"
      = some (ofString event.aggregateId) := property_envelope (by simp [envelopeMembers])
  have hnumber : (envelope dataJson event).property "version" = some (ofInt event.rest.version) :=
    property_envelope (by simp [envelopeMembers])
  have hat : (envelope dataJson event).property "occurredAt"
      = some (ofString event.rest.occurredAt) := property_envelope (by simp [envelopeMembers])
  have hproducer : (envelope dataJson event).property "producer"
      = some (ofString event.rest.producer) := property_envelope (by simp [envelopeMembers])
  have hpayload : (envelope dataJson event).property "data" = some (dataJson d) :=
    property_envelope (by simp [envelopeMembers, defined, hd])
  exact ⟨⟨rfl, hid ▸ isNonemptyString_ofString h₁, htype ▸ isNonemptyString_ofString h₂,
    haggregate ▸ isNonemptyString_ofString h₃, hnumber ▸ hversion,
    hat ▸ isNonemptyString_ofString h₅, hproducer ▸ isNonemptyString_ofString h₆,
    hpayload ▸ hdata⟩, (Except.ok.inj h).symm⟩

/-- `deserialize` on what `JSON.stringify` made of a value. -/
theorem deserialize_valueText {syntaxError : JsString → String} (v : JsValue toDouble) :
    deserialize toDouble syntaxError (valueText v.json) = checkEnvelope v.json.nulled := by
  rw [deserialize, v.ofText_valueText]

theorem ofString_ofList (cs : List Char) : JsString.ofString (String.ofList cs) = .ofChars cs := by
  rw [JsString.ofString, String.toList_ofList]

end Envelopes

/-! ## Round trips -/

section RoundTrips

variable {syntaxError : JsString → String}

/-- What a second reader makes of an event that is written again. -/
structure ReadAgain (toDouble : JsNumber → JsNumber) (syntaxError : JsString → String)
    (event : Json) (text : JsString) : Prop where
  /-- A number that is written as null is no version and no payload. -/
  outcome : deserialize toDouble syntaxError text
    = if isNotFinite (event.property "version") then
        .error "Invalid or missing version in event envelope"
      else if isNotFinite (event.property "data") then
        .error "Invalid or missing data payload in event envelope"
      else .ok event.nulled
  same_iff : deserialize toDouble syntaxError text = .ok event
    ↔ ∀ m ∈ event.numbers, m.isFinite = true

theorem readAgain_of_accepted {v : JsValue toDouble} (h : Accepted v.json) :
    ReadAgain toDouble syntaxError v.json (valueText v.json) := by
  refine ⟨?_, ?_⟩
  · rw [deserialize_valueText, h.check_nulled]
  · rw [deserialize_valueText, h.check_nulled_iff]

/-- What `deserialize` makes of the text that `serialize` made of an event. Its payload is any value
but null; its version is a double. The event comes back as it was just if the numbers of the payload
are finite, and is refused where it is itself one that is not. -/
theorem deserialize_serialize {event : EventEnvelope (EventData toDouble)} {text : String}
    (hversion : toDouble (.ofInt event.rest.version) = .ofInt event.rest.version)
    (h : serialize (stringifyEvent EventData.toJson) event = .ok text) :
    ReadAgain toDouble syntaxError (envelope EventData.toJson event) (.ofString text) := by
  obtain ⟨haccepted, rfl⟩ := accepted_of_serialize (fun d _ => d.notNull) h
  have hbuilt : WellMade (envelope EventData.toJson event) :=
    wellMade_envelope fun d _ => ⟨d.visited, d.readable.joined⟩
  have hdoubles : ∀ m ∈ (envelope EventData.toJson event).numbers,
      toDouble m = m := by
    intro m hm
    rcases mem_numbers_envelope hm with rfl | ⟨d, -, hm⟩
    · exact hversion
    · exact d.readable.doubles m hm
  rw [stringifyEvent, ofString_ofList]
  exact readAgain_of_accepted (v := ⟨_, hbuilt.visited, hdoubles, hbuilt.joined⟩) haccepted

/-- A payload with an infinite number in a list. -/
def soldOutRatio : EventData id where
  json := .object [(.ofString "ratio", .array [.number (.infinite false)])]
  visited := (wellMade_object ["ratio"] (List.Sublist.refl _) (List.nodup_singleton _)
    (by decide +kernel) fun m hm => by rw [List.mem_singleton.1 hm]; exact ⟨rfl, nofun⟩).visited
  readable := ⟨fun _ _ => rfl, fun s hs => by
    rw [List.mem_singleton.1 hs]
    exact joined_ofChars _⟩
  notNull := Json.noConfusion

def ratioEvent : EventEnvelope (EventData id) :=
  ⟨"evt-1", "event.sold_out", "e-1", ⟨1, "2026-09-08T12:00:00.000Z", "catalog", some soldOutRatio,
    none⟩⟩

def unexpectedToken (_ : JsString) : String := "Unexpected token in JSON"

theorem infinite_mem_ratioEvent :
    JsNumber.infinite false ∈ (envelope EventData.toJson ratioEvent).numbers := by
  decide +kernel

/-- It is accepted, with null in the list. -/
theorem deserialize_serialize_ratio :
    ∃ text, serialize (stringifyEvent EventData.toJson) ratioEvent = .ok text
      ∧ deserialize id unexpectedToken (.ofString text)
        = .ok (envelope EventData.toJson ratioEvent).nulled
      ∧ deserialize id unexpectedToken (.ofString text)
        ≠ .ok (envelope EventData.toJson ratioEvent) := by
  have hok : serialize (stringifyEvent EventData.toJson) ratioEvent
      = .ok (stringifyEvent EventData.toJson ratioEvent) := rfl
  have hread : ReadAgain id unexpectedToken (envelope EventData.toJson ratioEvent) _ :=
    deserialize_serialize rfl hok
  refine ⟨_, hok, hread.outcome, fun h => ?_⟩
  cases hread.same_iff.1 h _ infinite_mem_ratioEvent

/-- What `deserialize` accepted from any text, written by `JSON.stringify` and read again. -/
theorem deserialize_again (hround : ∀ m, toDouble (toDouble m) = toDouble m) {rawJson : JsString}
    {event : Json} (h : deserialize toDouble syntaxError rawJson = .ok event) :
    ReadAgain toDouble syntaxError event (valueText event) := by
  unfold deserialize at h
  rcases hx : Json.ofText toDouble rawJson with _ | parsed <;> rw [hx] at h
  · cases h
  obtain ⟨rfl, haccepted⟩ := accepted_of_check h
  obtain ⟨v, rfl⟩ := value_of_ofText hround hx
  exact readAgain_of_accepted haccepted

/-- A text with white space, an escape, the members in another order and one more of them. -/
def spacedText : JsString := .ofString
  ("\x7b \"version\" : 10e-1, \"eventId\": \"evt-1\", \"eventType\": \"event.sold_out\",\n"
    ++ "  \"extra\": null, \"aggregateId\": \"e-1\", \"occurredAt\": \"2026-09-08\",\n"
    ++ "  \"producer\": \"\\u0063atalog\", \"data\": [true] \x7d")

theorem spacedText_accepted : (deserialize id unexpectedToken spacedText).isOk = true := by
  decide +kernel

/-- The event of the spaced text comes back from its own. -/
theorem deserialize_again_spacedText :
    ∃ event, deserialize id unexpectedToken spacedText = .ok event
      ∧ ReadAgain id unexpectedToken event (valueText event) := by
  rcases h : deserialize id unexpectedToken spacedText with e | event
  · exact absurd spacedText_accepted (by rw [h]; exact Bool.false_ne_true)
  · exact ⟨event, rfl, deserialize_again (fun _ => rfl) h⟩

/-- Every number of a payload is an integer. -/
theorem isFinite_of_mem_payload {p : OrderConfirmedPayload} {m : JsNumber}
    (hm : m ∈ p.toJson.numbers) : m.isFinite = true := by
  have hmembers : ∀ (q : OrderConfirmedPayloadV1) (n : JsString × Json), n ∈ q.members →
      m ∈ n.2.numbers → m.isFinite = true := by
    intro q n hn hm
    simp only [OrderConfirmedPayloadV1.members, List.mem_cons, List.not_mem_nil, or_false] at hn
    rcases hn with rfl | rfl | rfl | rfl | rfl | rfl | rfl | rfl | rfl
    all_goals first
      | exact absurd hm numbers_ofString
      | exact List.mem_singleton.1 hm ▸ isFinite_ofInt _
  cases p with
  | v1 p =>
    obtain ⟨n, hn, hm⟩ := mem_memberNumbers.1 hm
    exact hmembers p n hn hm
  | v2 p =>
    obtain ⟨n, hn, hm⟩ := mem_memberNumbers.1 hm
    simp only [List.mem_append, mem_defined, Option.map_eq_some_iff] at hn
    rcases hn with (hn | ⟨y, ⟨s, -, rfl⟩, rfl⟩) | ⟨y, ⟨s, -, rfl⟩, rfl⟩
    · exact hmembers p.toOrderConfirmedPayloadV1 n hn hm
    · exact absurd hm numbers_ofString
    · exact absurd hm numbers_ofString

/-- A reader of the first version finds its fields in both. -/
theorem property_payload (p : OrderConfirmedPayload) {name : String}
    (hname : name ∈ payloadV1Names) :
    p.toJson.property name = (OrderConfirmedPayload.v1 p.base).toJson.property name := by
  cases p with
  | v1 p => rfl
  | v2 p =>
    have hne : ∀ n ∈ payloadV1Names, JsString.ofString n ≠ .ofString "customerEmail"
        ∧ JsString.ofString n ≠ .ofString "ticketTierName" := by decide +kernel
    have hnone : ∀ (other : String) (o : Option Json), JsString.ofString name ≠ .ofString other →
        Members.lastOf (.ofString name) (defined other o) = none := by
      intro other o hother
      refine Members.lastOf_eq_none fun hmem => hother ?_
      exact List.mem_singleton.1 ((defined_sublist other o).subset hmem)
    change Members.lastOf _ (p.members ++ defined _ _ ++ defined _ _) = Members.lastOf _ p.members
    rw [Members.lastOf_append, Members.lastOf_append, hnone _ _ (hne name hname).1,
      hnone _ _ (hne name hname).2, Option.none_or, Option.none_or]

variable (syntaxError) in
/-- The event of a confirmed order can be serialized, and comes back from its text as it was. A
reader of the first version finds each of its fields in the payload. -/
theorem order_confirmed_round_trip {o : Order} {eventId : Uuid}
    {options : CreateOrderConfirmedEventOptions} {event : EventEnvelope OrderConfirmedPayload}
    (hdoubles : ∀ m ∈ (envelope OrderConfirmedPayload.toJson event).numbers, toDouble m = m)
    (h : createOrderConfirmedEvent o eventId options = .ok event) :
    ∃ text, serialize (stringifyEvent OrderConfirmedPayload.toJson) event = .ok text
      ∧ deserialize toDouble syntaxError (.ofString text)
        = .ok (envelope OrderConfirmedPayload.toJson event)
      ∧ ∃ payload data, event.rest.data = some payload ∧ payload.base.Reports o
        ∧ (envelope OrderConfirmedPayload.toJson event).property "data" = some data
        ∧ ∀ name ∈ payloadV1Names,
          data.property name = (OrderConfirmedPayload.v1 payload.base).toJson.property name := by
  obtain ⟨⟨payload, hpayload, hreports⟩, hserialize⟩ := event_reports h
  have hok := hserialize (stringifyEvent OrderConfirmedPayload.toJson)
  have hnull : ∀ d, event.rest.data = some d → OrderConfirmedPayload.toJson d ≠ .null :=
    fun d _ => by cases d <;> exact Json.noConfusion
  obtain ⟨haccepted, -⟩ := accepted_of_serialize hnull hok
  have hbuilt : WellMade (envelope OrderConfirmedPayload.toJson event) :=
    wellMade_envelope fun d _ => wellMade_payload d
  have hfinite : ∀ m ∈ (envelope OrderConfirmedPayload.toJson event).numbers,
      m.isFinite = true := by
    intro m hm
    rcases mem_numbers_envelope hm with rfl | ⟨d, -, hm⟩
    · exact isFinite_ofInt _
    · exact isFinite_of_mem_payload hm
  have hread : ReadAgain toDouble syntaxError (envelope OrderConfirmedPayload.toJson event) _ :=
    readAgain_of_accepted (v := ⟨_, hbuilt.visited, hdoubles, hbuilt.joined⟩) haccepted
  refine ⟨_, hok, ?_, payload, payload.toJson, hpayload, hreports, ?_, fun name hname => ?_⟩
  · rw [stringifyEvent, ofString_ofList]
    exact hread.same_iff.2 hfinite
  · exact property_envelope (by simp [envelopeMembers, defined, hpayload])
  · exact property_payload payload hname

def confirmedOrder : Order where
  id := "o-77"
  userId := "bob"
  reservationId := "res-77"
  ticketTypeId := "ga"
  quantity := 2
  totalAmount := ⟨9000, "USD"⟩
  status := .confirmed
  providerTransactionId := some "txn-77"
  refundTransactionId := none
  confirmedAt := some 1788868800000
  paymentAttempts := []
  compensationAttempts := []
  id_nonblank := by decide
  userId_nonblank := by decide
  reservationId_nonblank := by decide
  ticketTypeId_nonblank := by decide
  quantity_pos := by decide

def confirmedEventOptions : CreateOrderConfirmedEventOptions :=
  ⟨some .two, some "bob@example.com", none, none, none⟩

def confirmedEventId : Uuid := ⟨"evt-77", by decide⟩

theorem order_confirmed_round_trip_v2 :
    ∃ event, createOrderConfirmedEvent confirmedOrder confirmedEventId confirmedEventOptions
        = .ok event
      ∧ ∃ text, serialize (stringifyEvent OrderConfirmedPayload.toJson) event = .ok text
        ∧ deserialize id unexpectedToken (.ofString text)
          = .ok (envelope OrderConfirmedPayload.toJson event) := by
  obtain ⟨event, h⟩ : ∃ event, createOrderConfirmedEvent confirmedOrder confirmedEventId
    confirmedEventOptions = .ok event := ⟨_, rfl⟩
  have hdoubles : ∀ m ∈ (envelope OrderConfirmedPayload.toJson event).numbers, id m = m :=
    fun _ _ => rfl
  obtain ⟨text, hok, hread, -⟩ := order_confirmed_round_trip unexpectedToken hdoubles h
  exact ⟨event, h, text, hok, hread⟩

end RoundTrips

end LaunchPad
