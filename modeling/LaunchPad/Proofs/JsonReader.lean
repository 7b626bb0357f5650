import LaunchPad.JsonReader
import LaunchPad.Proofs.Stringify

/-!
# `JSON.parse` reads back what `JSON.stringify` writes

Each part of a text is read back before what may follow it: a code point before anything, a number
before what is not of a number, a value before a comma, a bracket or the end (`readsBack_value`). So
a value is read back with null for its numbers that are not finite (`ofText_stringify`).
-/

namespace LaunchPad

open Reading

/-! ## Strings -/

section Strings

theorem hexDigit_digitChar : ∀ d < 16, hexDigit d.digitChar = some d := by decide

theorem unescape_digits (n : ℕ) (h : n < 65536) :
    n / 4096 % 16 * 4096 + n / 256 % 16 * 256 + n / 16 % 16 * 16 + n % 16 = n := by
  omega

theorem readEscape_unicodeEscape {n : ℕ} (h : n < 65536) (u : JsString) :
    readCodePoint (JsString.ofChars (unicodeEscape n) ++ u) = some (.ofUnit n, u) := by
  have hdigit : ∀ m, hexDigit (m % 16).digitChar = some (m % 16) := fun m =>
    hexDigit_digitChar _ (Nat.mod_lt m (by decide))
  have hread : readEscape (.char 'u' :: .char (n / 4096 % 16).digitChar
      :: .char (n / 256 % 16).digitChar :: .char (n / 16 % 16).digitChar
      :: .char (n % 16).digitChar :: u) = some (.ofUnit n, u) := by
    rw [readEscape, hdigit, hdigit, hdigit, hdigit]
    simp only [unescape_digits n h]
  change readCodePoint (.char '\\' :: .char 'u' :: _) = _
  rw [readCodePoint, if_pos rfl]
  exact hread

theorem CodePoint.ofUnit_value (x : CodePoint) (h : x.value < 65536) : ofUnit x.value = x := by
  rcases x with c | u
  · have hvalid := c.valid
    have hno : ¬(0xd800 ≤ c.toNat ∧ c.toNat < 0xd800 + 2048) := by
      rcases hvalid with h | h
      · have : c.toNat < 0xd800 := h
        omega
      · have : 0xdfff < c.toNat := h.1
        omega
    rw [value, ofUnit, dif_neg hno, Char.ofNat_toNat]
  · have hu := u.2
    rw [value, ofUnit, dif_pos ⟨by omega, by omega⟩]
    exact congrArg _ (Fin.ext (by simp))

theorem readEscape_of_escapeLetter {c letter : Char} (h : escapeLetter c = some letter)
    (u : JsString) : readCodePoint (.char '\\' :: .char letter :: u) = some (.char c, u) := by
  unfold escapeLetter at h
  split_ifs at h with h1 h2 h3 h4 h5 h6 <;> cases h
  · rw [h1]; rfl
  · rw [h2]; rfl
  · rw [h3]; rfl
  · rw [h4]; rfl
  · rw [h5]; rfl
  · rcases h6 with rfl | rfl <;> rfl

/-- A code point is read back before anything. -/
theorem readsBack_codePoint (x : CodePoint) :
    ReadsBack readCodePoint (fun _ => True) (fun x => JsString.ofChars (quoteCodePoint x)) id
      x := by
  intro u _
  rcases x with c | v
  · cases hletter : escapeLetter c with
    | some letter =>
      simp only [quoteCodePoint, hletter]
      exact readEscape_of_escapeLetter hletter u
    | none =>
      by_cases hlow : c.toNat < 0x20
      · have hvalue : CodePoint.ofUnit c.toNat = .char c :=
          CodePoint.ofUnit_value (.char c) (hlow.trans (by decide))
        simp only [quoteCodePoint, hletter, if_pos hlow]
        rw [readEscape_unicodeEscape (hlow.trans (by decide)), hvalue]
        rfl
      · have hc : c ≠ '\\' := (ne_of_escapeLetter_none hletter).2
        simp only [quoteCodePoint, hletter, if_neg hlow]
        change (if c = '\\' then _ else _) = _
        rw [if_neg hc, if_neg hlow]
        rfl
  · have hlt : 0xd800 + v.1 < 65536 := by omega
    exact (readEscape_unicodeEscape hlt u).trans
      (congrArg (fun y => some (y, u)) (CodePoint.ofUnit_value (.surrogate v) hlt))

theorem ofChars_append (cs ds : List Char) :
    JsString.ofChars (cs ++ ds) = JsString.ofChars cs ++ JsString.ofChars ds := List.map_append

theorem ofChars_flatMap (s : JsString) :
    JsString.ofChars (s.flatMap quoteCodePoint)
      = s.flatMap fun x => JsString.ofChars (quoteCodePoint x) := List.map_flatMap ..

theorem quoteCodePoint_ne_nil (x : CodePoint) : quoteCodePoint x ≠ [] := by
  rcases quoteCodePoint_cases x with ⟨c, -, hx, -⟩ | ⟨c, letter, -, -, hx⟩ | ⟨hx, -⟩ <;> rw [hx]
  · exact List.cons_ne_nil _ _
  · exact List.cons_ne_nil _ _
  · exact List.cons_ne_nil _ _

theorem ofChars_injective : Function.Injective JsString.ofChars :=
  List.map_injective_iff.2 fun _ _ h => CodePoint.char.inj h

theorem length_le_flatMap {α β : Type} {text : α → List β} (hne : ∀ x, text x ≠ []) (xs : List α) :
    xs.length ≤ (xs.flatMap text).length := by
  induction xs with
  | nil => exact Nat.zero_le _
  | cons x xs ih =>
    have := List.length_pos_of_ne_nil (hne x)
    rw [List.flatMap_cons, List.length_append, List.length_cons]
    omega

theorem readString_quote {s : JsString} (hs : s.joined = s) (u : JsString) :
    readString (JsString.ofChars (s.flatMap quoteCodePoint) ++ .char '\"' :: u)
      = some (s, u) := by
  have hne : ∀ x, JsString.ofChars (quoteCodePoint x) ≠ [] := fun x h =>
    quoteCodePoint_ne_nil x (List.map_eq_nil_iff.1 h)
  have hstop : ∀ x v, JsString.ofChars (quoteCodePoint x) ≠ .char '\"' :: v := by
    intro x v h
    obtain ⟨c, cs, hx⟩ := List.exists_cons_of_ne_nil (quoteCodePoint_ne_nil x)
    refine quoteCodePoint_ne_quote x [] cs ?_
    rw [hx] at h ⊢
    rw [← CodePoint.char.inj (List.cons.inj h).1, List.append_nil]
  have hitems := itemsUntil_flatMap hne hstop s
    ((JsString.ofChars (s.flatMap quoteCodePoint) ++ .char '\"' :: u).length + 1) u (by
      have := length_le_flatMap hne s
      rw [ofChars_flatMap, List.length_append]
      omega) fun x _ => readsBack_codePoint x
  rw [readString, ofChars_flatMap]
  rw [ofChars_flatMap] at hitems
  rw [hitems, List.map_id]
  exact congrArg (fun t => some (t, u)) hs

end Strings

/-! ## Numbers -/

section Numbers

/-- What may follow a value. -/
def TextTail (u : JsString) : Prop :=
  ∀ x ∈ u.head?, x = .char ',' ∨ x = .char ']' ∨ x = .char '\x7d'

theorem textTail_cons {x : CodePoint} (h : x = .char ',' ∨ x = .char ']' ∨ x = .char '\x7d')
    (u : JsString) : TextTail (x :: u) := by
  intro y hy
  rwa [← Option.some.inj hy]

theorem textTail_nil : TextTail [] := nofun

/-- The text does not begin with one of these. -/
def BeginsWithout (p : Char → Prop) (u : JsString) : Prop := ∀ c, .char c ∈ u.head? → ¬p c

theorem TextTail.beginsWithout {u : JsString} (h : TextTail u) {p : Char → Prop}
    (hp : ¬p ',' ∧ ¬p ']' ∧ ¬p '\x7d') : BeginsWithout p u := by
  intro c hc
  rcases h _ hc with h | h | h <;> obtain rfl := CodePoint.char.inj h
  · exact hp.1
  · exact hp.2.1
  · exact hp.2.2

theorem beginsWithout_cons {p : Char → Prop} {c : Char} (hc : ¬p c) (u : JsString) :
    BeginsWithout p (.char c :: u) := by
  intro d hd
  rwa [← CodePoint.char.inj (Option.some.inj hd)]

theorem takeDigits_append {ds : List Char} {u : JsString} (hds : ∀ c ∈ ds, c.isDigit = true)
    (hu : BeginsWithout (fun c => c.isDigit = true) u) :
    takeDigits (JsString.ofChars ds ++ u) = (ds, u) := by
  induction ds with
  | nil =>
    rcases u with _ | ⟨c | v, u⟩
    · rfl
    · exact if_neg (hu c rfl)
    · rfl
  | cons c ds ih =>
    have hrest := ih fun d hd => hds d (List.mem_cons_of_mem c hd)
    change takeDigits (.char c :: (JsString.ofChars ds ++ u)) = _
    rw [takeDigits, if_pos (hds c List.mem_cons_self), hrest]

theorem readFraction_append {frac : List Char} {u : JsString}
    (hfrac : ∀ c ∈ frac, c.isDigit = true)
    (hu : BeginsWithout (fun c => c.isDigit = true ∨ c = '.') u) :
    readFraction (JsString.ofChars (fractionText frac) ++ u) = some (frac, u) := by
  have hdigits : BeginsWithout (fun c => c.isDigit = true) u := fun c hc h => hu c hc (.inl h)
  rcases frac with _ | ⟨c, frac⟩
  · change readFraction u = _
    unfold readFraction
    split
    · exact absurd (.inr rfl) (hu '.' rfl)
    · rfl
  · change readFraction (.char '.' :: (JsString.ofChars (c :: frac) ++ u)) = _
    rw [readFraction, takeDigits_append hfrac hdigits]
    exact if_neg (List.cons_ne_nil c frac)

theorem readExponentDigits_append (negative : Bool) (n : ℕ) {u : JsString}
    (hu : BeginsWithout (fun c => c.isDigit = true) u) :
    readExponentDigits negative (JsString.ofChars n.repr.toList ++ u)
      = some (if negative then -(n : ℤ) else n, u) := by
  rw [readExponentDigits, takeDigits_append (fun c hc => Text.isDigit_of_mem_repr hc) hu]
  simp only [ofDigitChars_repr]
  exact if_neg (List.ne_nil_of_length_pos (length_repr_pos n))

theorem readExponent_append (e : Option ℤ) {u : JsString}
    (hu : BeginsWithout (fun c => c.isDigit = true ∨ c = 'e' ∨ c = 'E') u) :
    readExponent (JsString.ofChars (exponentText e) ++ u) = some (e.getD 0, u) := by
  have hdigits : BeginsWithout (fun c => c.isDigit = true) u := fun c hc h => hu c hc (.inl h)
  rcases e with _ | e
  · change readExponent u = _
    unfold readExponent
    split
    · next c text => exact if_neg fun h => hu c rfl (.inr h)
    · rfl
  · by_cases he : e < 0
    · have hneg : -(e.natAbs : ℤ) = e := by omega
      have hread := readExponentDigits_append true e.natAbs hdigits
      rw [if_pos rfl, hneg] at hread
      change readExponent (.char 'e' :: .char (if e < 0 then '-' else '+') :: _) = _
      rw [if_pos he, readExponent, if_pos (.inl rfl)]
      exact hread
    · have hpos : (e.natAbs : ℤ) = e := by omega
      have hread := readExponentDigits_append false e.natAbs hdigits
      rw [if_neg Bool.false_ne_true, hpos] at hread
      change readExponent (.char 'e' :: .char (if e < 0 then '-' else '+') :: _) = _
      rw [if_neg he, readExponent, if_pos (.inl rfl)]
      exact hread

/-- A decimal is that of its digits without the zeros behind them. -/
theorem JsNumber.ofDecimal_eq (negative : Bool) (s : Significand) (z : ℕ) (e : ℤ) :
    ofDecimal negative (s.1 * 10 ^ z) e
      = .finite negative s (e + z + s.1.repr.toList.length) := by
  have hs : s.1 ≠ 0 := fun h => s.2 (by rw [h])
  have hne : s.1 * 10 ^ z ≠ 0 := Nat.mul_ne_zero hs (pow_ne_zero z (by decide))
  have hdiv := Nat.divMaxPow_mul_pow_padicValNat 10 (s.1 * 10 ^ z)
  have hmod : (s.1 * 10 ^ z).divMaxPow 10 % 10 ≠ 0 := fun h =>
    Nat.not_dvd_divMaxPow (by decide) hne (Nat.dvd_of_mod_eq_zero h)
  obtain ⟨hd, hz⟩ := mul_pow_ten_inj hmod s.2 hdiv
  rw [ofDecimal, dif_neg hne]
  simp only [hd, hz]

theorem head_repr_ne_zero {n : ℕ} (hn : n ≠ 0) : n.repr.toList.head? ≠ some '0' := by
  rw [Nat.toList_repr]
  induction n using Nat.strong_induction_on with
  | h n ih =>
    by_cases hlt : n < 10
    · rw [Nat.toDigits_of_lt_base hlt]
      have hdigit : ∀ d < 10, d ≠ 0 → d.digitChar ≠ '0' := by decide
      exact fun h => hdigit n hlt hn (Option.some.inj h)
    · have htens : n / 10 ≠ 0 := by omega
      have hne : Nat.toDigits 10 (n / 10) ≠ [] := Nat.toDigits_ne_nil
      rw [Nat.toDigits_of_base_le (by decide) (by omega), List.head?_append_of_ne_nil _ hne]
      exact ih (n / 10) (by omega) htens

/-- A zero at the front stands before the point. -/
theorem decimalText_zero {s : Significand} {n : ℤ} {t : List Char}
    (h : decimalText s n = '0' :: t) : t.head? = some '.' := by
  have hs : s.1 ≠ 0 := fun h => s.2 (by rw [h])
  have hhead := head_repr_ne_zero hs
  have hpos := length_repr_pos s.1
  unfold decimalText at h
  generalize s.1.repr.toList = digits at h hhead hpos
  obtain ⟨d, digits, rfl⟩ := List.exists_cons_of_length_pos hpos
  have hd : d ≠ '0' := fun hd => hhead (congrArg some hd)
  simp only [] at h
  split_ifs at h with hrange hlong hpoint hone hone
  · exact absurd (List.cons.inj h).1 hd
  · obtain ⟨m, hm⟩ := Nat.exists_eq_succ_of_ne_zero (n := n.toNat) (by omega)
    rw [hm, List.take_succ_cons] at h
    exact absurd (List.cons.inj h).1 hd
  · rw [← (List.cons.inj h).2]
    rfl
  · exact absurd (List.cons.inj h).1 hd
  · exact absurd (List.cons.inj h).1 hd
  · exact absurd (List.cons.inj h).1 hd
  · exact absurd (List.cons.inj h).1 hd

/-- The digits before the point begin with a zero only where it is alone. -/
theorem Denotes.int_ok {s : Significand} {n : ℤ} {int frac : List Char} {e : Option ℤ} {z : ℕ}
    (h : Denotes (decimalText s n) s.1 n int frac e z) :
    ¬(int = [] ∨ int.head? = some '0' ∧ int ≠ ['0']) := by
  rintro (h0 | ⟨h0, hne⟩)
  · exact h.int_ne_nil h0
  obtain ⟨c, int, rfl⟩ := List.exists_cons_of_ne_nil h.int_ne_nil
  obtain rfl : c = '0' := Option.some.inj h0
  obtain ⟨d, int, rfl⟩ := List.exists_cons_of_ne_nil fun h : int = [] => hne (by rw [h])
  have hdot : d = '.' := Option.some.inj (decimalText_zero h.text_eq)
  have hdigit := h.int_digits d (by simp)
  rw [hdot] at hdigit
  cases hdigit

theorem readSign_of_ne {c : Char} (hc : c ≠ '-') (u : JsString) :
    readSign (.char c :: u) = (false, .char c :: u) := by
  unfold readSign
  split
  · next heq => exact absurd (CodePoint.char.inj (List.cons.inj heq).1) hc
  · rfl

theorem readDecimal_numberText {negative : Bool} {int frac : List Char} (e : Option ℤ)
    {u : JsString} (hint : ∀ c ∈ int, c.isDigit = true)
    (hok : ¬(int = [] ∨ int.head? = some '0' ∧ int ≠ ['0']))
    (hfrac : ∀ c ∈ frac, c.isDigit = true) (hu : TextTail u) :
    readDecimal (JsString.ofChars ((if negative then ['-'] else []) ++ numberText int frac e) ++ u)
      = some (.ofDecimal negative (Nat.ofDigitChars 10 (int ++ frac) 0) (e.getD 0 - frac.length),
        u) := by
  have hend : BeginsWithout (fun c => c.isDigit = true ∨ c = 'e' ∨ c = 'E') u :=
    hu.beginsWithout (by decide)
  have hexp : BeginsWithout (fun c => c.isDigit = true ∨ c = '.')
      (JsString.ofChars (exponentText e) ++ u) := by
    rcases e with _ | e
    · exact hu.beginsWithout (by decide)
    · exact beginsWithout_cons (by decide) _
  have hrest : BeginsWithout (fun c => c.isDigit = true)
      (JsString.ofChars (fractionText frac) ++ (JsString.ofChars (exponentText e) ++ u)) := by
    rcases frac with _ | ⟨c, frac⟩
    · exact fun c hc h => hexp c hc (.inl h)
    · exact beginsWithout_cons (by decide) _
  have hsign : readSign (JsString.ofChars ((if negative then ['-'] else [])
      ++ numberText int frac e) ++ u) = (negative, JsString.ofChars int
        ++ (JsString.ofChars (fractionText frac) ++ (JsString.ofChars (exponentText e) ++ u))) := by
    simp only [numberText, ofChars_append, List.append_assoc]
    cases negative with
    | true => rfl
    | false =>
      obtain ⟨c, int, rfl⟩ := List.exists_cons_of_ne_nil fun h : int = [] => hok (.inl h)
      refine readSign_of_ne ?_ _
      rintro rfl
      cases hint '-' List.mem_cons_self
  unfold readDecimal
  simp only [hsign, takeDigits_append hint hrest, if_neg hok, readFraction_append hfrac hexp,
    readExponent_append e hend]

theorem readDecimal_stringify {x : JsNumber} (hx : x.isFinite = true) {u : JsString}
    (hu : TextTail u) : readDecimal (JsString.ofChars x.stringify ++ u) = some (x, u) := by
  rcases x with _ | _ | negative | ⟨negative, s, n⟩
  · have hzero : ∀ c ∈ ['0'], c.isDigit = true := fun c hc => isDigit_of_mem_replicate (m := 1) hc
    have hread : readDecimal (JsString.ofChars ((if false then ['-'] else [])
        ++ numberText ['0'] [] none) ++ u) = _ :=
      readDecimal_numberText none hzero (by decide) nofun hu
    exact hread
  · cases hx
  · cases hx
  · obtain ⟨int, frac, e, z, hd⟩ := exists_denotes s n
    have hpoint : e.getD 0 - frac.length + z + s.1.repr.toList.length = n := by
      have := hd.point_eq
      omega
    rw [JsNumber.stringify, hd.text_eq,
      readDecimal_numberText e hd.int_digits hd.int_ok hd.frac_digits hu, hd.value_eq,
      JsNumber.ofDecimal_eq, hpoint]

end Numbers

/-! ## Values -/

namespace Json

section Begin

theorem skipSpace_cons {x : CodePoint} (hx : isSpace x = false) (u : JsString) :
    skipSpace (x :: u) = x :: u := List.dropWhile_cons_of_neg (by simp [hx])

/-- A value begins with a character that says of which kind it is. -/
theorem begins_stringify (x : Json) : ∃ c t, stringify x = c :: t ∧ leadKind c < 7 := by
  obtain ⟨c, t, hx, hc⟩ := head_stringify x
  exact ⟨c, t, hx, hc ▸ kind_lt _⟩

theorem ne_of_leadKind {c d : Char} (hc : leadKind c < 7) (hd : leadKind d = 7) : c ≠ d := by
  rintro rfl
  rw [hd] at hc
  exact absurd hc (lt_irrefl 7)

theorem not_isSpace_of_leadKind {c : Char} (hc : leadKind c < 7) : isSpace (.char c) = false := by
  have hne : ∀ d, leadKind d = 7 → c ≠ d := fun d => ne_of_leadKind hc
  simp [isSpace, hne ' ' (by decide), hne '\t' (by decide), hne '\n' (by decide),
    hne '\r' (by decide)]

end Begin

variable {toDouble : JsNumber → JsNumber}

def valueText (x : Json) : JsString := .ofChars (stringify x)

def memberValueText (m : JsString × Json) : JsString := .ofChars (memberText m)

section Parts

theorem mem_elementNumbers {m : JsNumber} {xs : List Json} :
    m ∈ elementNumbers xs ↔ ∃ x ∈ xs, m ∈ numbers x := by
  induction xs with
  | nil => simp [elementNumbers]
  | cons x xs ih => simp [elementNumbers, ih]

theorem mem_memberNumbers {m : JsNumber} {ms : List (JsString × Json)} :
    m ∈ memberNumbers ms ↔ ∃ x ∈ ms, m ∈ numbers x.2 := by
  induction ms with
  | nil => simp [memberNumbers]
  | cons x ms ih => simp [memberNumbers, ih]

theorem mem_elementStrings {s : JsString} {xs : List Json} :
    s ∈ elementStrings xs ↔ ∃ x ∈ xs, s ∈ strings x := by
  induction xs with
  | nil => simp [elementStrings]
  | cons x xs ih => simp [elementStrings, ih]

theorem mem_memberStrings {s : JsString} {ms : List (JsString × Json)} :
    s ∈ memberStrings ms ↔ ∃ x ∈ ms, s = x.1 ∨ s ∈ strings x.2 := by
  induction ms with
  | nil => simp [memberStrings]
  | cons x ms ih =>
    simp only [memberStrings, List.mem_cons, List.mem_append, ih, exists_eq_or_imp, or_assoc]

theorem Readable.element {xs : List Json} (h : Readable toDouble (.array xs)) {x : Json}
    (hx : x ∈ xs) : Readable toDouble x :=
  ⟨fun m hm => h.doubles m (mem_elementNumbers.2 ⟨x, hx, hm⟩),
    fun s hs => h.joined s (mem_elementStrings.2 ⟨x, hx, hs⟩)⟩

theorem Readable.member {ms : List (JsString × Json)} (h : Readable toDouble (.object ms))
    {x : JsString × Json} (hx : x ∈ ms) : JsString.joined x.1 = x.1 ∧ Readable toDouble x.2 :=
  ⟨h.joined x.1 (mem_memberStrings.2 ⟨x, hx, .inl rfl⟩),
    fun m hm => h.doubles m (mem_memberNumbers.2 ⟨x, hx, hm⟩),
    fun s hs => h.joined s (mem_memberStrings.2 ⟨x, hx, .inr hs⟩)⟩

theorem ofChars_intercalate {β : Type} (text : β → List Char) (xs : List β) :
    JsString.ofChars ([','].intercalate (xs.map text))
      = [.char ','].intercalate (xs.map fun x => JsString.ofChars (text x)) := by
  rcases xs with _ | ⟨x, xs⟩
  · rfl
  · rw [List.map_cons, List.map_cons, Text.intercalate_cons, Text.intercalate_cons, ofChars_append]
    simp only [JsString.ofChars, List.map_flatMap, List.flatMap_map, List.map_cons]

end Parts

section Lists

/-- A list is read back between its brackets. -/
theorem readList_intercalate {β γ : Type} {read : JsonReader γ} {text : β → List Char} {f : β → γ}
    {stop : Char} {fuel : ℕ} (hstop : stop = ']' ∨ stop = '\x7d')
    (hbegin : ∀ x, ∃ c t, text x = c :: t ∧ leadKind c < 7) {xs : List β}
    (hlen : xs.length ≤ fuel)
    (hread : ∀ x ∈ xs, ReadsBack read TextTail (fun x => JsString.ofChars (text x)) f x)
    (u : JsString) :
    readList fuel read (.char stop)
      (JsString.ofChars ([','].intercalate (xs.map text)) ++ .char stop :: u)
        = some (xs.map f, u) := by
  have hkind : leadKind stop = 7 ∧ isSpace (.char stop) = false ∧ ',' ≠ stop := by
    rcases hstop with rfl | rfl <;> decide
  have htail : ∀ v, TextTail (.char stop :: v) := fun v =>
    textTail_cons (.inr (hstop.imp (congrArg _) (congrArg _))) v
  rcases xs with _ | ⟨x, xs⟩
  · change readList fuel read (.char stop) (.char stop :: u) = _
    rw [readList, skipSpace_cons hkind.2.1]
    exact if_pos rfl
  · obtain ⟨c, t, hx, hc⟩ := hbegin x
    have hfront : ∃ v, JsString.ofChars ([','].intercalate ((x :: xs).map text))
        ++ .char stop :: u = .char c :: v := by
      rw [List.map_cons, Text.intercalate_cons, hx]
      exact ⟨_, rfl⟩
    obtain ⟨v, hv⟩ := hfront
    have hne : (CodePoint.char c) ≠ .char stop := fun h =>
      ne_of_leadKind hc hkind.1 (CodePoint.char.inj h)
    rw [readList, hv, skipSpace_cons (not_isSpace_of_leadKind hc)]
    simp only [if_neg hne]
    rw [← hv, ofChars_intercalate]
    exact separated_intercalate (fun w => skipSpace_cons (by decide) w)
      (fun w => skipSpace_cons hkind.2.1 w) (fun h => hkind.2.2 (CodePoint.char.inj h))
      (fun w => textTail_cons (.inl rfl) w) htail x xs fuel u hlen hread

end Lists

/-- What the first character says of a value to read. -/
theorem readValue_cons {c : Char} (hc : leadKind c < 7) (n : ℕ) (rest : JsString) :
    readValue (n + 1) (.char c :: rest)
      = if c = '\"' then (readString rest).map fun p => (.string p.1, p.2)
        else if c = '[' then
          (readList n (readValue n) (.char ']') rest).map fun p => (.array p.1, p.2)
        else if c = '\x7b' then
          (readList n (readMember (readValue n)) (.char '\x7d') rest).map
            fun p => (.object p.1, p.2)
        else if c = 'n' then readLiteral "null".toList .null (.char c :: rest)
        else if c = 't' then readLiteral "true".toList (.bool true) (.char c :: rest)
        else if c = 'f' then readLiteral "false".toList (.bool false) (.char c :: rest)
        else (readDecimal (.char c :: rest)).map fun p => (.number p.1, p.2) := by
  rw [readValue, skipSpace_cons (not_isSpace_of_leadKind hc)]
  simp only [CodePoint.char.injEq]

abbrev ReadBack (n : ℕ) (x : Json) : Prop :=
  ReadsBack (readValue n) TextTail valueText nulled x

theorem readLiteral_append {β : Type} (word : List Char) (x : β) (u : JsString) :
    readLiteral word x (JsString.ofChars word ++ u) = some (x, u) := by
  have hlen : word.length = (JsString.ofChars word).length := (List.length_map _).symm
  rw [readLiteral, if_pos (List.prefix_append _ _), hlen, List.drop_left]

theorem readBack_null {x : Json} (hx : nulled x = .null) (n : ℕ) :
    ReadBack (n + 1) x := by
  intro u _
  obtain ⟨-, htext⟩ := of_kind_null (x := x) (by rw [hx]; rfl)
  have hread := readLiteral_append "null".toList Json.null u
  rw [hx, valueText, htext]
  exact (readValue_cons (by decide) n _).trans hread

theorem readBack_bool (b : Bool) (n : ℕ) : ReadBack (n + 1) (.bool b) := by
  intro u _
  cases b with
  | true => exact (readValue_cons (by decide) n _).trans (readLiteral_append "true".toList _ u)
  | false => exact (readValue_cons (by decide) n _).trans (readLiteral_append "false".toList _ u)

theorem readBack_number {m : JsNumber} (hm : m.isFinite = true) (n : ℕ) :
    ReadBack (n + 1) (.number m) := by
  intro u hu
  obtain ⟨c, t, hx, hc⟩ := head_stringify_number hm
  have hne : ∀ d, leadKind d ≠ 3 → c ≠ d := by
    rintro d hd rfl
    exact hd hc
  have hread := readDecimal_stringify hm hu
  have htext : valueText (.number m) ++ u = .char c :: (JsString.ofChars t ++ u) := by
    rw [valueText, stringify, hx]
    rfl
  rw [hx] at hread
  rw [htext, readValue_cons (by rw [hc]; decide), if_neg (hne _ (by decide)),
    if_neg (hne _ (by decide)), if_neg (hne _ (by decide)), if_neg (hne _ (by decide)),
    if_neg (hne _ (by decide)), if_neg (hne _ (by decide)), nulled, if_pos hm]
  change Option.map _ (readDecimal (JsString.ofChars (c :: t) ++ u)) = _
  rw [hread, Option.map_some]

theorem readBack_string {s : JsString} (hs : s.joined = s) (n : ℕ) :
    ReadBack (n + 1) (.string s) := by
  intro u _
  have hread := readString_quote hs u
  have htext : valueText (.string s) ++ u
      = .char '\"' :: (JsString.ofChars (s.flatMap quoteCodePoint) ++ .char '\"' :: u) := by
    rw [valueText, stringify, quote]
    change _ :: (JsString.ofChars (_ ++ _) ++ u) = _
    rw [ofChars_append, List.append_assoc]
    rfl
  rw [htext, readValue_cons (by decide), if_pos rfl, hread]
  rfl

theorem readBack_array {xs : List Json} {n : ℕ} (hlen : (stringify (.array xs)).length ≤ n + 1)
    (hxs : ∀ x ∈ xs, ReadBack n x) : ReadBack (n + 1) (.array xs) := by
  intro u _
  have hne : ∀ x, stringify x ≠ [] := fun x h => by
    obtain ⟨c, t, hx, -⟩ := begins_stringify x
    rw [hx] at h
    cases h
  have hcount : xs.length ≤ n := by
    have := length_le_intercalate hne ',' xs
    rw [stringify, stringifyElements_eq_map, List.length_cons, List.length_append] at hlen
    omega
  have hread := readList_intercalate (.inl rfl) begins_stringify hcount hxs u
  have htext : valueText (.array xs) ++ u
      = .char '[' :: (JsString.ofChars ([','].intercalate (xs.map stringify))
          ++ .char ']' :: u) := by
    rw [valueText, stringify, stringifyElements_eq_map]
    change _ :: (JsString.ofChars (_ ++ _) ++ u) = _
    rw [ofChars_append, List.append_assoc]
    rfl
  rw [htext, readValue_cons (by decide), if_neg (by decide), if_pos rfl, hread, nulled,
    nulledElements_eq_map]
  rfl

theorem readMember_memberText {m : JsString × Json} {n : ℕ} (hname : JsString.joined m.1 = m.1)
    (hm : ReadBack n m.2) :
    ReadsBack (readMember (readValue n)) TextTail memberValueText nulledMember m := by
  intro u hu
  have hvalue := hm u hu
  have hread := readString_quote hname (.char ':' :: (valueText m.2 ++ u))
  have htext : memberValueText m ++ u = .char '\"'
      :: (JsString.ofChars (m.1.flatMap quoteCodePoint) ++ .char '\"'
        :: .char ':' :: (valueText m.2 ++ u)) := by
    rw [memberValueText, memberText, quote]
    change _ :: (JsString.ofChars (_ ++ _ ++ _) ++ u) = _
    rw [ofChars_append, ofChars_append, List.append_assoc, List.append_assoc]
    rfl
  have hquote : isSpace (.char '\"') = false := by decide
  have hcolon : isSpace (.char ':') = false := by decide
  rw [htext, readMember, skipSpace_cons hquote]
  simp only [if_true, hread, skipSpace_cons hcolon, hvalue]
  rfl

theorem readBack_object {ms : List (JsString × Json)} {n : ℕ}
    (hlen : (stringify (.object ms)).length ≤ n + 1)
    (hnames : ∀ m ∈ ms, JsString.joined m.1 = m.1)
    (hms : ∀ m ∈ ms, ReadBack n m.2) : ReadBack (n + 1) (.object ms) := by
  intro u _
  have hbegin : ∀ m, ∃ c t, memberText m = c :: t ∧ leadKind c < 7 := fun m =>
    ⟨_, _, rfl, by decide⟩
  have hne : ∀ m, memberText m ≠ [] := fun m => List.cons_ne_nil _ _
  have hcount : ms.length ≤ n := by
    have := length_le_intercalate hne ',' ms
    rw [stringify, stringifyMembers_eq_map, List.length_cons, List.length_append] at hlen
    omega
  have hread := readList_intercalate (.inr rfl) hbegin hcount
    (fun m hm => readMember_memberText (hnames m hm) (hms m hm)) u
  have htext : valueText (.object ms) ++ u
      = .char '\x7b' :: (JsString.ofChars ([','].intercalate (ms.map memberText))
          ++ .char '\x7d' :: u) := by
    rw [valueText, stringify, stringifyMembers_eq_map]
    change _ :: (JsString.ofChars (_ ++ _) ++ u) = _
    rw [ofChars_append, List.append_assoc]
    rfl
  rw [htext, readValue_cons (by decide), if_neg (by decide), if_neg (by decide), if_pos rfl, hread,
    nulled, nulledMembers_eq_map]
  rfl

mutual

/-- A value is read back before what may follow it, with null for its numbers that are not
finite. -/
theorem readBack_value : ∀ (x : Json) (n : ℕ), Readable toDouble x → (stringify x).length ≤ n →
    ReadBack n x
  | x, 0, _, hn => by
    obtain ⟨c, t, hx, -⟩ := begins_stringify x
    rw [hx] at hn
    cases hn
  | .null, n + 1, _, _ => readBack_null rfl n
  | .bool b, n + 1, _, _ => readBack_bool b n
  | .number m, n + 1, h, _ =>
    if hm : m.isFinite = true then readBack_number hm n
    else readBack_null (by rw [nulled, if_neg hm]) n
  | .string s, n + 1, h, _ => readBack_string (h.joined s (by simp [strings])) n
  | .array xs, n + 1, h, hn => by
    refine readBack_array hn (readBack_elements xs n (fun x => h.element) fun x hx => ?_)
    have : (stringify x).length ≤ ([','].intercalate (xs.map stringify)).length :=
      length_text_le_intercalate ',' hx
    rw [stringify, stringifyElements_eq_map, List.length_cons, List.length_append] at hn
    omega
  | .object ms, n + 1, h, hn => by
    refine readBack_object hn (fun m hm => (h.member hm).1)
      (readBack_members ms n (fun m hm => (h.member hm).2) fun m hm => ?_)
    have : (memberText m).length ≤ ([','].intercalate (ms.map memberText)).length :=
      length_text_le_intercalate ',' hm
    rw [memberText, List.length_append, List.length_cons] at this
    rw [stringify, stringifyMembers_eq_map, List.length_cons, List.length_append] at hn
    omega

theorem readBack_elements : ∀ (xs : List Json) (n : ℕ), (∀ x ∈ xs, Readable toDouble x) →
    (∀ x ∈ xs, (stringify x).length ≤ n) → ∀ x ∈ xs, ReadBack n x
  | [], _, _, _, _, hx => by cases hx
  | x :: xs, n, h, hn, y, hy => by
    have hxs := readBack_elements xs n (fun z hz => h z (List.mem_cons_of_mem x hz))
      fun z hz => hn z (List.mem_cons_of_mem x hz)
    rcases List.mem_cons.1 hy with he | hy
    · exact he ▸ readBack_value x n (h x List.mem_cons_self) (hn x List.mem_cons_self)
    · exact hxs y hy

theorem readBack_members : ∀ (ms : List (JsString × Json)) (n : ℕ),
    (∀ m ∈ ms, Readable toDouble m.2) → (∀ m ∈ ms, (stringify m.2).length ≤ n) →
      ∀ m ∈ ms, ReadBack n m.2
  | [], _, _, _, _, hm => by cases hm
  | (name, x) :: ms, n, h, hn, m, hm => by
    have hms := readBack_members ms n (fun z hz => h z (List.mem_cons_of_mem _ hz))
      fun z hz => hn z (List.mem_cons_of_mem _ hz)
    rcases List.mem_cons.1 hm with he | hm
    · exact he ▸ readBack_value x n (h _ List.mem_cons_self) (hn _ List.mem_cons_self)
    · exact hms m hm

end

mutual

/-- Doubles stay as they are, and null for some of them too. -/
theorem rounded_nulled : ∀ x : Json, (∀ m ∈ x.numbers, toDouble m = m) →
    rounded toDouble (nulled x) = nulled x
  | .null, _ => rfl
  | .bool b, _ => rfl
  | .number m, h => by
    have hm : toDouble m = m := h m (by simp [numbers])
    rw [nulled]
    split_ifs
    · rw [rounded, hm]
    · rfl
  | .string s, _ => rfl
  | .array xs, h => by rw [nulled, rounded, roundedElements_nulled xs h]
  | .object ms, h => by rw [nulled, rounded, roundedMembers_nulled ms h]

theorem roundedElements_nulled : ∀ xs : List Json, (∀ m ∈ elementNumbers xs, toDouble m = m) →
    roundedElements toDouble (nulledElements xs) = nulledElements xs
  | [], _ => rfl
  | x :: xs, h => by
    obtain ⟨hx, hxs⟩ := List.forall_mem_append.1 h
    rw [nulledElements, roundedElements, rounded_nulled x hx, roundedElements_nulled xs hxs]

theorem roundedMembers_nulled : ∀ ms : List (JsString × Json),
    (∀ m ∈ memberNumbers ms, toDouble m = m) →
      roundedMembers toDouble (nulledMembers ms) = nulledMembers ms
  | [], _ => rfl
  | (name, x) :: ms, h => by
    obtain ⟨hx, hms⟩ := List.forall_mem_append.1 h
    rw [nulledMembers, roundedMembers, rounded_nulled x hx, roundedMembers_nulled ms hms]

end

/-- What `JSON.parse` makes of the text of a value. -/
theorem ofText_valueText {x : Json} (h : Readable toDouble x) :
    ofText toDouble (valueText x) = some (nulled x).visited := by
  have hlen : (stringify x).length ≤ (valueText x).length + 1 := by
    rw [valueText, JsString.ofChars, List.length_map]
    omega
  have hread := readBack_value x _ h hlen [] textTail_nil
  rw [List.append_nil] at hread
  rw [ofText, hread]
  change some (parse toDouble (nulled x)) = some (nulled x).visited
  rw [parse, rounded_nulled x h.doubles]

/-! ### Values -/

theorem visitedMembers_eq_mapValues (ms : List (JsString × Json)) :
    visitedMembers ms = Members.mapValues visited ms := by
  induction ms with
  | nil => rfl
  | cons m ms ih =>
    rw [visitedMembers, ih]
    rfl

theorem nulledMembers_eq_mapValues (ms : List (JsString × Json)) :
    nulledMembers ms = Members.mapValues nulled ms := nulledMembers_eq_map ms

mutual

theorem visited_nulled : ∀ x : Json, (nulled x).visited = nulled x.visited
  | .null => rfl
  | .bool b => rfl
  | .number m => by
    by_cases hm : m.isFinite = true
    · rw [visited, nulled, if_pos hm, visited]
    · rw [visited, nulled, if_neg hm, visited]
  | .string s => rfl
  | .array xs => by rw [nulled, visited, visited, nulled, visitedElements_nulled xs]
  | .object ms => by
    rw [nulled, visited, visited, nulled, visitedMembers_nulled ms, nulledMembers_eq_mapValues,
      nulledMembers_eq_mapValues, Members.mapValues_arranged, Members.mapValues_create]

theorem visitedElements_nulled : ∀ xs : List Json,
    visitedElements (nulledElements xs) = nulledElements (visitedElements xs)
  | [] => rfl
  | x :: xs => by
    rw [nulledElements, visitedElements, visitedElements, nulledElements, visited_nulled x,
      visitedElements_nulled xs]

theorem visitedMembers_nulled : ∀ ms : List (JsString × Json),
    visitedMembers (nulledMembers ms) = nulledMembers (visitedMembers ms)
  | [] => rfl
  | (name, x) :: ms => by
    rw [nulledMembers, visitedMembers, visitedMembers, nulledMembers, visited_nulled x,
      visitedMembers_nulled ms]

end

mutual

/-- What is visited in order stays in order. -/
theorem visited_visited : ∀ x : Json, x.visited.visited = x.visited
  | .null => rfl
  | .bool b => rfl
  | .number m => rfl
  | .string s => rfl
  | .array xs => by rw [visited, visited, visitedElements_visited xs]
  | .object ms => by
    have hms := visitedMembers_visited ms
    rw [visitedMembers_eq_mapValues, visitedMembers_eq_mapValues] at hms
    rw [visited, visited, visitedMembers_eq_mapValues, visitedMembers_eq_mapValues,
      Members.mapValues_arranged, Members.mapValues_create, hms, Members.arranged_create_again]

theorem visitedElements_visited : ∀ xs : List Json,
    visitedElements (visitedElements xs) = visitedElements xs
  | [] => rfl
  | x :: xs => by
    rw [visitedElements, visitedElements, visited_visited x, visitedElements_visited xs]

theorem visitedMembers_visited : ∀ ms : List (JsString × Json),
    visitedMembers (visitedMembers ms) = visitedMembers ms
  | [] => rfl
  | (name, x) :: ms => by
    rw [visitedMembers, visitedMembers, visited_visited x, visitedMembers_visited ms]

end

theorem mem_of_mem_arranged {m : JsString × Json} {ms : List (JsString × Json)}
    (h : m ∈ Members.arranged arrayIndex (Members.create ms)) : m ∈ ms :=
  Members.mem_of_mem_create ((Members.arranged_perm arrayIndex _).mem_iff.1 h)

theorem readable_array {xs : List Json} (h : ∀ x ∈ xs, Readable toDouble x) :
    Readable toDouble (.array xs) := by
  refine ⟨fun m hm => ?_, fun s hs => ?_⟩
  · obtain ⟨x, hx, hm⟩ := mem_elementNumbers.1 hm
    exact (h x hx).doubles m hm
  · obtain ⟨x, hx, hs⟩ := mem_elementStrings.1 hs
    exact (h x hx).joined s hs

theorem readable_object {ms : List (JsString × Json)}
    (h : ∀ m ∈ ms, JsString.joined m.1 = m.1 ∧ Readable toDouble m.2) :
    Readable toDouble (.object ms) := by
  refine ⟨fun m hm => ?_, fun s hs => ?_⟩
  · obtain ⟨x, hx, hm⟩ := mem_memberNumbers.1 hm
    exact (h x hx).2.doubles m hm
  · obtain ⟨x, hx, rfl | hs⟩ := mem_memberStrings.1 hs
    · exact (h x hx).1
    · exact (h x hx).2.joined s hs

mutual

/-- No numbers and no strings are added. -/
theorem Readable.visited : ∀ {x : Json}, Readable toDouble x → Readable toDouble x.visited
  | .null, h | .bool _, h | .number _, h | .string _, h => h
  | .array _, h => readable_array (readable_visitedElements fun _ hx => h.element hx)
  | .object _, h => readable_object fun m hm =>
      readable_visitedMembers (fun _ hm => h.member hm) m (mem_of_mem_arranged hm)

theorem readable_visitedElements : ∀ {xs : List Json}, (∀ x ∈ xs, Readable toDouble x) →
    ∀ x ∈ visitedElements xs, Readable toDouble x
  | [], _, _, hx => by cases hx
  | x :: xs, h, y, hy => by
    rcases List.mem_cons.1 hy with rfl | hy
    · exact (h x List.mem_cons_self).visited
    · exact readable_visitedElements (fun z hz => h z (List.mem_cons_of_mem x hz)) y hy

theorem readable_visitedMembers : ∀ {ms : List (JsString × Json)},
    (∀ m ∈ ms, JsString.joined m.1 = m.1 ∧ Readable toDouble m.2) →
      ∀ m ∈ visitedMembers ms, JsString.joined m.1 = m.1 ∧ Readable toDouble m.2
  | [], _, _, hm => by cases hm
  | (name, x) :: ms, h, m, hm => by
    rcases List.mem_cons.1 hm with rfl | hm
    · exact ⟨(h _ List.mem_cons_self).1, (h _ List.mem_cons_self).2.visited⟩
    · exact readable_visitedMembers (fun z hz => h z (List.mem_cons_of_mem _ hz)) m hm

end

/-! ### What is read is readable -/

section Read

theorem join_cases (x : CodePoint) (s : JsString) :
    x.join s = x :: s ∨ ∃ c rest, x.join s = .char c :: rest := by
  unfold CodePoint.join
  split
  · split_ifs
    · exact .inr ⟨_, _, rfl⟩
    · exact .inl rfl
  · exact .inl rfl

theorem joined_cons (x : CodePoint) (s : JsString) :
    JsString.joined (x :: s) = x.join (JsString.joined s) := rfl

theorem joined_of_surrogate {v : Fin 2048} {rest : JsString}
    (h : JsString.joined (.surrogate v :: rest) = .surrogate v :: rest) :
    JsString.joined rest = rest := by
  rw [joined_cons] at h
  rcases join_cases (.surrogate v) (JsString.joined rest) with hkeep | ⟨c, r, hchar⟩
  · exact (List.cons.inj (hkeep.symm.trans h)).2
  · exact absurd (List.cons.inj (hchar.symm.trans h)).1 CodePoint.noConfusion

theorem joined_join {x : CodePoint} {s : JsString} (hs : s.joined = s) :
    JsString.joined (x.join s) = x.join s := by
  have hkeep : x.join s = x :: s → JsString.joined (x.join s) = x.join s := fun h => by
    rw [h, joined_cons, hs, h]
  unfold CodePoint.join at hkeep ⊢
  split at hkeep
  · next u v rest =>
    split_ifs with hpair
    · rw [joined_cons, joined_of_surrogate hs]
      rfl
    · have h := hkeep (if_neg hpair)
      rwa [if_neg hpair] at h
  · exact hkeep rfl

theorem joined_joined (s : JsString) : s.joined.joined = s.joined := by
  induction s with
  | nil => rfl
  | cons x s ih => exact joined_join ih

theorem joined_of_readString {text rest s : JsString} (h : readString text = some (s, rest)) :
    s.joined = s := by
  obtain ⟨⟨t, r⟩, -, hp⟩ := Option.map_eq_some_iff.1 h
  rw [← (Prod.mk.inj hp).1]
  exact joined_joined t

theorem readList_forall {β : Type} {n : ℕ} {read : JsonReader β} {stop : CodePoint}
    {P : β → Prop} (hread : ∀ text x rest, read text = some (x, rest) → P x)
    {text : JsString} {xs : List β} {rest : JsString}
    (h : readList n read stop text = some (xs, rest)) : ∀ x ∈ xs, P x := by
  unfold readList at h
  split at h
  · cases h
  · split_ifs at h
    · obtain ⟨rfl, -⟩ := Prod.mk.inj (Option.some.inj h)
      nofun
    · exact separated_forall hread n text xs rest h

theorem readMember_eq_some {read : JsonReader Json} {text rest : JsString} {m : JsString × Json}
    (h : readMember read text = some (m, rest)) :
    ∃ c t name t₁ c' t₂, skipSpace text = c :: t ∧ readString t = some (name, t₁)
      ∧ skipSpace t₁ = c' :: t₂ ∧ read t₂ = some (m.2, rest) ∧ m.1 = name := by
  unfold readMember at h
  rcases h₁ : skipSpace text with _ | ⟨c, t⟩ <;> rw [h₁] at h
  · cases h
  simp only at h
  split_ifs at h
  rcases h₂ : readString t with _ | ⟨name, t₁⟩ <;> rw [h₂] at h
  · cases h
  simp only at h
  rcases h₃ : skipSpace t₁ with _ | ⟨c', t₂⟩ <;> rw [h₃] at h
  · cases h
  simp only at h
  split_ifs at h
  rcases h₄ : read t₂ with _ | ⟨x, t₃⟩ <;> rw [h₄] at h
  · cases h
  obtain ⟨rfl, rfl⟩ := Prod.mk.inj (Option.some.inj h)
  exact ⟨c, t, name, t₁, c', t₂, rfl, h₂, h₃, h₄, rfl⟩

/-- The strings of a document are joined. -/
def Joined (x : Json) : Prop := ∀ s ∈ x.strings, JsString.joined s = s

theorem joined_array {xs : List Json} (h : ∀ x ∈ xs, Joined x) : Joined (.array xs) := by
  intro s hs
  obtain ⟨x, hx, hs⟩ := mem_elementStrings.1 hs
  exact h x hx s hs

theorem joined_object {ms : List (JsString × Json)}
    (h : ∀ m ∈ ms, JsString.joined m.1 = m.1 ∧ Joined m.2) : Joined (.object ms) := by
  intro s hs
  obtain ⟨x, hx, rfl | hs⟩ := mem_memberStrings.1 hs
  · exact (h x hx).1
  · exact (h x hx).2 s hs

theorem readLiteral_eq_some {β : Type} {word : List Char} {x y : β} {text rest : JsString}
    (h : readLiteral word x text = some (y, rest)) :
    y = x ∧ rest.length + word.length = text.length := by
  unfold readLiteral at h
  split_ifs at h with hpre
  obtain ⟨rfl, rfl⟩ := Prod.mk.inj (Option.some.inj h)
  refine ⟨rfl, ?_⟩
  have := hpre.length_le
  rw [JsString.ofChars, List.length_map] at this
  rw [List.length_drop]
  omega

/-- What is read has joined strings. -/
theorem readValue_joined : ∀ (n : ℕ) (text : JsString) (x : Json) (rest : JsString),
    readValue n text = some (x, rest) → Joined x
  | 0, _, _, _, h => by cases h
  | n + 1, text, x, rest, h => by
    have ih := readValue_joined n
    unfold readValue at h
    rcases hc : skipSpace text with _ | ⟨c, t⟩ <;> rw [hc] at h
    · cases h
    simp only at h
    split_ifs at h
    · obtain ⟨⟨s, r⟩, hs, hp⟩ := Option.map_eq_some_iff.1 h
      rw [← (Prod.mk.inj hp).1]
      intro s' hs'
      rw [List.mem_singleton.1 hs']
      exact joined_of_readString hs
    · obtain ⟨⟨xs, r⟩, hxs, hp⟩ := Option.map_eq_some_iff.1 h
      rw [← (Prod.mk.inj hp).1]
      exact joined_array (readList_forall ih hxs)
    · obtain ⟨⟨ms, r⟩, hms, hp⟩ := Option.map_eq_some_iff.1 h
      rw [← (Prod.mk.inj hp).1]
      refine joined_object (readList_forall (fun t m r hm => ?_) hms)
      obtain ⟨_, _, name, _, _, _, -, hname, -, hvalue, hm⟩ := readMember_eq_some hm
      exact ⟨hm ▸ joined_of_readString hname, ih _ _ _ hvalue⟩
    · rw [(readLiteral_eq_some h).1]
      nofun
    · rw [(readLiteral_eq_some h).1]
      nofun
    · rw [(readLiteral_eq_some h).1]
      nofun
    · obtain ⟨⟨m, r⟩, hm, hp⟩ := Option.map_eq_some_iff.1 h
      rw [← (Prod.mk.inj hp).1]
      nofun

mutual

/-- A document that is rounded has doubles, and the strings it had. -/
theorem readable_rounded (hround : ∀ m, toDouble (toDouble m) = toDouble m) :
    ∀ {x : Json}, Joined x → Readable toDouble (rounded toDouble x)
  | .null, h | .bool _, h | .string _, h => ⟨nofun, h⟩
  | .number m, h => ⟨fun m' hm' => by rw [List.mem_singleton.1 hm', hround], h⟩
  | .array xs, h => readable_array (readable_roundedElements hround fun x hx s hs =>
      h s (mem_elementStrings.2 ⟨x, hx, hs⟩))
  | .object ms, h => readable_object (readable_roundedMembers hround fun m hm =>
      ⟨h m.1 (mem_memberStrings.2 ⟨m, hm, .inl rfl⟩),
        fun s hs => h s (mem_memberStrings.2 ⟨m, hm, .inr hs⟩)⟩)

theorem readable_roundedElements (hround : ∀ m, toDouble (toDouble m) = toDouble m) :
    ∀ {xs : List Json}, (∀ x ∈ xs, Joined x) →
      ∀ x ∈ roundedElements toDouble xs, Readable toDouble x
  | [], _, _, hx => by cases hx
  | x :: xs, h, y, hy => by
    rcases List.mem_cons.1 hy with rfl | hy
    · exact readable_rounded hround (h x List.mem_cons_self)
    · exact readable_roundedElements hround (fun z hz => h z (List.mem_cons_of_mem x hz)) y hy

theorem readable_roundedMembers (hround : ∀ m, toDouble (toDouble m) = toDouble m) :
    ∀ {ms : List (JsString × Json)}, (∀ m ∈ ms, JsString.joined m.1 = m.1 ∧ Joined m.2) →
      ∀ m ∈ roundedMembers toDouble ms, JsString.joined m.1 = m.1 ∧ Readable toDouble m.2
  | [], _, _, hm => by cases hm
  | (name, x) :: ms, h, m, hm => by
    rcases List.mem_cons.1 hm with rfl | hm
    · exact ⟨(h _ List.mem_cons_self).1, readable_rounded hround (h _ List.mem_cons_self).2⟩
    · exact readable_roundedMembers hround (fun z hz => h z (List.mem_cons_of_mem _ hz)) m hm

end

/-- What `JSON.parse` returns is a value. -/
theorem value_of_ofText (hround : ∀ m, toDouble (toDouble m) = toDouble m) {text : JsString}
    {x : Json} (h : ofText toDouble text = some x) : ∃ v : JsValue toDouble, v.json = x := by
  unfold ofText at h
  rcases hx : readValue (text.length + 1) text with _ | ⟨doc, rest⟩ <;> rw [hx] at h
  · cases h
  simp only at h
  split_ifs at h
  obtain rfl := Option.some.inj h
  have hreadable := readable_rounded hround (readValue_joined _ _ _ _ hx)
  exact ⟨⟨doc.parse toDouble, visited_visited _, hreadable.visited⟩, rfl⟩

end Read

/-! ### Enough fuel -/

section Fuel

theorem length_skipSpace_le (u : JsString) : (skipSpace u).length ≤ u.length :=
  (List.dropWhile_suffix _).length_le

theorem length_of_skipSpace {u t : JsString} {c : CodePoint} (h : skipSpace u = c :: t) :
    t.length < u.length := by
  have := length_skipSpace_le u
  rw [h, List.length_cons] at this
  omega

theorem readEscape_shortens : Shortens readEscape := by
  intro text x rest h
  unfold readEscape at h
  split at h
  · split at h
    · obtain ⟨-, rfl⟩ := Prod.mk.inj (Option.some.inj h)
      simp only [List.length_cons]
      omega
    · cases h
  · split_ifs at h <;>
      · obtain ⟨-, rfl⟩ := Prod.mk.inj (Option.some.inj h)
        exact Nat.lt_succ_self _
  · cases h

theorem readCodePoint_shortens : Shortens readCodePoint := by
  intro text x rest h
  unfold readCodePoint at h
  split at h
  · split_ifs at h
    · exact (readEscape_shortens _ _ _ h).trans (Nat.lt_succ_self _)
    · obtain ⟨-, rfl⟩ := Prod.mk.inj (Option.some.inj h)
      exact Nat.lt_succ_self _
  · obtain ⟨-, rfl⟩ := Prod.mk.inj (Option.some.inj h)
    exact Nat.lt_succ_self _
  · cases h

theorem readString_shortens : Shortens readString := by
  intro text x rest h
  obtain ⟨⟨t, r⟩, hp, hr⟩ := Option.map_eq_some_iff.1 h
  obtain ⟨-, rfl⟩ := Prod.mk.inj hr
  exact itemsUntil_shortens readCodePoint_shortens _ _ _ _ hp

theorem length_takeDigits : ∀ text : JsString,
    (takeDigits text).1.length + (takeDigits text).2.length = text.length
  | [] => rfl
  | .surrogate v :: text => by simp [takeDigits]
  | .char c :: text => by
    have ih := length_takeDigits text
    rw [takeDigits]
    split_ifs
    · simp only [List.length_cons]
      omega
    · simp

theorem length_readSign (text : JsString) : (readSign text).2.length ≤ text.length := by
  unfold readSign
  split
  · exact Nat.le_succ _
  · exact Nat.le_refl _

theorem length_readFraction {text rest : JsString} {frac : List Char}
    (h : readFraction text = some (frac, rest)) : rest.length ≤ text.length := by
  unfold readFraction at h
  split at h
  · next t =>
    have := length_takeDigits t
    simp only at h
    split_ifs at h
    obtain ⟨-, rfl⟩ := Prod.mk.inj (Option.some.inj h)
    rw [List.length_cons]
    omega
  · obtain ⟨-, rfl⟩ := Prod.mk.inj (Option.some.inj h)
    exact Nat.le_refl _

theorem length_readExponentDigits {negative : Bool} {text rest : JsString} {e : ℤ}
    (h : readExponentDigits negative text = some (e, rest)) : rest.length ≤ text.length := by
  have := length_takeDigits text
  unfold readExponentDigits at h
  simp only at h
  split_ifs at h <;>
    · obtain ⟨-, rfl⟩ := Prod.mk.inj (Option.some.inj h)
      omega

theorem length_readExponent {text rest : JsString} {e : ℤ}
    (h : readExponent text = some (e, rest)) : rest.length ≤ text.length := by
  unfold readExponent at h
  split at h
  · split_ifs at h
    · split at h <;>
        · have := length_readExponentDigits h
          simp only [List.length_cons] at *
          omega
    · obtain ⟨-, rfl⟩ := Prod.mk.inj (Option.some.inj h)
      exact Nat.le_refl _
  · obtain ⟨-, rfl⟩ := Prod.mk.inj (Option.some.inj h)
    exact Nat.le_refl _

theorem readLiteral_shortens {β : Type} {word : List Char} (hword : word ≠ []) (x : β) :
    Shortens (readLiteral word x) := by
  intro text y rest h
  have hlen := (readLiteral_eq_some h).2
  have hpos := List.length_pos_of_ne_nil hword
  omega

theorem map_shortens {α β γ : Type} {read : Reader α β} (hread : Shortens read) (f : β → γ)
    {text rest : List α} {x : γ} (h : ((read text).map fun p => (f p.1, p.2)) = some (x, rest)) :
    rest.length < text.length := by
  obtain ⟨p, hp, hr⟩ := Option.map_eq_some_iff.1 h
  rw [← (Prod.mk.inj hr).2]
  exact hread _ _ _ hp

theorem readDecimal_shortens : Shortens readDecimal := by
  intro text x rest h
  have hsign := length_readSign text
  have hdigits := length_takeDigits (readSign text).2
  unfold readDecimal at h
  simp only at h
  split_ifs at h with hint
  have hpos : 0 < (takeDigits (readSign text).2).1.length :=
    List.length_pos_of_ne_nil fun h0 => hint (.inl h0)
  split at h
  · cases h
  · next frac t hfrac =>
    have hf := length_readFraction hfrac
    split at h
    · cases h
    · next e r hexp =>
      have he := length_readExponent hexp
      obtain ⟨-, rfl⟩ := Prod.mk.inj (Option.some.inj h)
      omega

theorem readList_shortens {β : Type} {n : ℕ} {read : JsonReader β} {stop : CodePoint}
    (hread : Shortens read) : Shortens (readList n read stop) := by
  intro text xs rest h
  unfold readList at h
  split at h
  · cases h
  · next c t hc =>
    have hlt := length_of_skipSpace hc
    split_ifs at h
    · obtain ⟨-, rfl⟩ := Prod.mk.inj (Option.some.inj h)
      exact hlt
    · exact separated_shortens hread length_skipSpace_le n text xs rest h

theorem readMember_shortens {read : JsonReader Json} (hread : Shortens read) :
    Shortens (readMember read) := by
  intro text m rest h
  obtain ⟨c, t, name, t₁, c', t₂, h₁, h₂, h₃, h₄, -⟩ := readMember_eq_some h
  have hl₁ := length_of_skipSpace h₁
  have hl₂ := readString_shortens _ _ _ h₂
  have hl₃ := length_of_skipSpace h₃
  have hl₄ := hread _ _ _ h₄
  omega

theorem readValue_shortens : ∀ n, Shortens (readValue n)
  | 0, _, _, _, h => by cases h
  | n + 1, text, x, rest, h => by
    have ih := readValue_shortens n
    unfold readValue at h
    rcases hc : skipSpace text with _ | ⟨c, t⟩ <;> rw [hc] at h
    · cases h
    have hlt := length_of_skipSpace hc
    simp only at h
    split_ifs at h
    · exact (map_shortens readString_shortens _ h).trans hlt
    · exact (map_shortens (readList_shortens ih) _ h).trans hlt
    · exact (map_shortens (readList_shortens (readMember_shortens ih)) _ h).trans hlt
    · exact (readLiteral_shortens (by decide) _ _ _ _ h).trans_le hlt
    · exact (readLiteral_shortens (by decide) _ _ _ _ h).trans_le hlt
    · exact (readLiteral_shortens (by decide) _ _ _ _ h).trans_le hlt
    · have := map_shortens readDecimal_shortens number h
      rw [List.length_cons] at this
      omega

theorem readMember_congr {read read' : JsonReader Json} {text : JsString}
    (h : ∀ t : JsString, t.length < text.length → read' t = read t) :
    readMember read' text = readMember read text := by
  unfold readMember
  rcases h₁ : skipSpace text with _ | ⟨c, t⟩
  · rfl
  have hl₁ := length_of_skipSpace h₁
  simp only
  rcases h₂ : readString t with _ | ⟨name, t₁⟩
  · rfl
  have hl₂ := readString_shortens _ _ _ h₂
  simp only
  rcases h₃ : skipSpace t₁ with _ | ⟨c', t₂⟩
  · rfl
  have hl₃ := length_of_skipSpace h₃
  simp only [h t₂ (by omega)]

theorem readList_succ {β : Type} {n : ℕ} {read read' : JsonReader β} {stop : CodePoint}
    {text : JsString} (hread : Shortens read) (hn : text.length ≤ n)
    (h : ∀ t : JsString, t.length ≤ text.length → read' t = read t) :
    readList (n + 1) read' stop text = readList n read stop text := by
  unfold readList
  rw [separated_succ hread length_skipSpace_le n text hn h]

/-- As much fuel as the text is long is enough: more of it changes nothing. -/
theorem readValue_succ : ∀ (n : ℕ) (text : JsString), text.length < n →
    readValue (n + 1) text = readValue n text
  | 0, _, hn => absurd hn (Nat.not_lt_zero _)
  | n + 1, text, hn => by
    rw [readValue, readValue]
    rcases hc : skipSpace text with _ | ⟨c, t⟩
    · rfl
    have hlt := length_of_skipSpace hc
    have ih : ∀ u : JsString, u.length ≤ t.length →
        readValue (n + 1) u = readValue n u := fun u hu =>
      readValue_succ n u (by omega)
    have hlist : readList (n + 1) (readValue (n + 1)) (.char ']') t
        = readList n (readValue n) (.char ']') t :=
      readList_succ (readValue_shortens n) (by omega) ih
    have hmembers : readList (n + 1) (readMember (readValue (n + 1))) (.char '\x7d') t
        = readList n (readMember (readValue n)) (.char '\x7d') t :=
      readList_succ (readMember_shortens (readValue_shortens n)) (by omega) fun u hu =>
        readMember_congr fun v hv => ih v (by omega)
    simp only [hlist, hmembers]

/-- A value is read in the same way with more fuel than the text is long. -/
theorem readValue_fuel {n : ℕ} {text : JsString} (hn : text.length < n) :
    readValue n text = readValue (text.length + 1) text := by
  induction n, hn using Nat.le_induction with
  | base => rfl
  | succ m hm ih => rw [readValue_succ m text hm, ih]

end Fuel

end Json

/-- `JSON.parse` gives back what `JSON.stringify` wrote, with null for numbers that are not
finite. -/
theorem JsValue.ofText_valueText {toDouble : JsNumber → JsNumber} (v : JsValue toDouble) :
    Json.ofText toDouble (Json.valueText v.json) = some v.json.nulled := by
  rw [Json.ofText_valueText v.readable, Json.visited_nulled, v.visited]

end LaunchPad
