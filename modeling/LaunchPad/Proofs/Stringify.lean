import LaunchPad.Json
import LaunchPad.Lib.Text
import Mathlib.Algebra.Order.Ring.Nat

/-!
# What `JSON.stringify` tells apart

The text of a number has digits before the decimal point, digits behind it and an exponent, which
say which number it is. The text of a code point cannot be mistaken for that of another. So the text
of a value says which value it is, but for numbers that are not finite, which are written as null.
-/

namespace LaunchPad

/-! ## Numbers -/

section Numbers

/-- The digits behind the point, with it. -/
def fractionText : List Char → List Char
  | [] => []
  | c :: frac => '.' :: c :: frac

def exponentText : Option ℤ → List Char
  | none => []
  | some e => 'e' :: (if e < 0 then '-' else '+') :: e.natAbs.repr.toList

/-- A number written as digits before the point, digits behind it and an exponent. -/
def numberText (int frac : List Char) (e : Option ℤ) : List Char :=
  int ++ (fractionText frac ++ exponentText e)

def isNumberChar (c : Char) : Bool := c.isDigit || c = '.' || c = 'e' || c = '-' || c = '+'

variable {int int' frac frac' : List Char} {e e' : Option ℤ} {s s' : Significand} {n n' : ℤ}

theorem exponentText_inj (h : exponentText e = exponentText e') : e = e' := by
  rcases e with _ | e <;> rcases e' with _ | e'
  · rfl
  · cases h
  · cases h
  · obtain ⟨hsign, hdigits⟩ := List.cons.inj (List.cons.inj h).2
    have habs := Text.repr_injective (String.toList_inj.1 hdigits)
    split_ifs at hsign with h1 h2 h2
    · exact congrArg some (by omega)
    · exact absurd hsign (by decide)
    · exact absurd hsign (by decide)
    · exact congrArg some (by omega)

theorem not_isDigit_of_head_exponentText (e : Option ℤ) :
    ∀ c ∈ (exponentText e).head?, ¬c.isDigit = true := by
  intro c hc
  rcases e with _ | e
  · cases hc
  · obtain rfl := Option.some.inj hc
    decide

theorem not_isDigit_of_head_rest (frac : List Char) (e : Option ℤ) :
    ∀ c ∈ (fractionText frac ++ exponentText e).head?, ¬c.isDigit = true := by
  rcases frac with _ | ⟨d, frac⟩
  · exact not_isDigit_of_head_exponentText e
  · intro c hc
    obtain rfl := Option.some.inj hc
    decide

theorem numberText_inj (hint : ∀ c ∈ int, c.isDigit = true) (hint' : ∀ c ∈ int', c.isDigit = true)
    (hfrac : ∀ c ∈ frac, c.isDigit = true) (hfrac' : ∀ c ∈ frac', c.isDigit = true)
    (h : numberText int frac e = numberText int' frac' e') :
    int = int' ∧ frac = frac' ∧ e = e' := by
  obtain ⟨rfl, hrest⟩ := Text.stretch_inj hint hint' (not_isDigit_of_head_rest frac e)
    (not_isDigit_of_head_rest frac' e') h
  refine ⟨rfl, ?_⟩
  rcases frac with _ | ⟨d, frac⟩ <;> rcases frac' with _ | ⟨d', frac'⟩
  · exact ⟨rfl, exponentText_inj hrest⟩
  · rcases e with _ | e <;> cases hrest
  · rcases e' with _ | e' <;> cases hrest
  · obtain ⟨hfracs, he⟩ := Text.stretch_inj hfrac hfrac' (not_isDigit_of_head_exponentText e)
      (not_isDigit_of_head_exponentText e') (List.cons.inj hrest).2
    exact ⟨hfracs, exponentText_inj he⟩

/-- The text denotes `s * 10 ^ (n - k)`, where `s` has `k` digits: the digits around the point are
those of `s` and `z` zeros. -/
structure Denotes (text : List Char) (s : ℕ) (n : ℤ) (int frac : List Char) (e : Option ℤ)
    (z : ℕ) : Prop where
  text_eq : text = numberText int frac e
  int_ne_nil : int ≠ []
  int_digits : ∀ c ∈ int, c.isDigit = true
  frac_digits : ∀ c ∈ frac, c.isDigit = true
  value_eq : Nat.ofDigitChars 10 (int ++ frac) 0 = s * 10 ^ z
  point_eq : e.getD 0 - frac.length + z = n - s.repr.toList.length

theorem fractionText_of_ne_nil (h : frac ≠ []) : fractionText frac = '.' :: frac := by
  obtain ⟨c, frac, rfl⟩ := List.exists_cons_of_ne_nil h
  rfl

theorem ofDigitChars_repr (s : ℕ) : Nat.ofDigitChars 10 s.repr.toList 0 = s := by
  rw [Nat.toList_repr, Nat.ofDigitChars_ten_toDigits]

theorem length_repr_pos (s : ℕ) : 0 < s.repr.toList.length := by
  rw [Nat.toList_repr]
  exact Nat.length_toDigits_pos

theorem isDigit_of_mem_replicate {m : ℕ} {c : Char} (h : c ∈ List.replicate m '0') :
    c.isDigit = true := by
  rw [List.eq_of_mem_replicate h]
  rfl

theorem ofDigitChars_zeros (m : ℕ) (digits : List Char) :
    Nat.ofDigitChars 10 (List.replicate m '0' ++ digits) 0 = Nat.ofDigitChars 10 digits 0 := by
  rw [Nat.ofDigitChars_append, Nat.ofDigitChars_replicate_zero, Nat.mul_zero]

/-- Behind the digits, the exponent. -/
theorem exponentText_pred (h : ¬(-5 ≤ n ∧ n ≤ 21)) :
    'e' :: (if n < 0 then '-' else '+') :: (n - 1).natAbs.repr.toList
      = exponentText (some (n - 1)) := by
  have hsign : n < 0 ↔ n - 1 < 0 := by omega
  simp only [exponentText, hsign]

section Digits

variable {digits : List Char} (hd : s.1.repr.toList = digits)
include hd

/-- All digits before the point, with zeros behind them. -/
theorem denotes_whole {z : ℕ} (hpoint : e.getD 0 + z = n - digits.length) :
    Denotes (digits ++ (List.replicate z '0' ++ exponentText e)) s.1 n
      (digits ++ List.replicate z '0') [] e z := by
  subst hd
  have hnil : s.1.repr.toList ≠ [] := List.ne_nil_of_length_pos (length_repr_pos s.1)
  refine ⟨by simp [numberText, fractionText], fun h => hnil (List.append_eq_nil_iff.1 h).1,
    fun c hc => ?_, by simp, ?_, ?_⟩
  · exact (List.mem_append.1 hc).elim Text.isDigit_of_mem_repr isDigit_of_mem_replicate
  · rw [List.append_nil, Nat.ofDigitChars_append, Nat.ofDigitChars_replicate_zero,
      ofDigitChars_repr, Nat.mul_comm]
  · rw [List.length_nil]
    omega

/-- The point somewhere in the digits. -/
theorem denotes_split {m : ℕ} (hm : 0 < m) (hlt : m < digits.length)
    (hpoint : e.getD 0 + m = n) :
    Denotes (digits.take m ++ '.' :: (digits.drop m ++ exponentText e)) s.1 n (digits.take m)
      (digits.drop m) e 0 := by
  subst hd
  have hfrac : s.1.repr.toList.drop m ≠ [] :=
    List.ne_nil_of_length_pos (by rw [List.length_drop]; omega)
  refine ⟨?_, ?_, fun c hc => ?_, fun c hc => ?_, ?_, ?_⟩
  · rw [numberText, fractionText_of_ne_nil hfrac, List.cons_append]
  · exact List.ne_nil_of_length_pos (by rw [List.length_take]; omega)
  · exact Text.isDigit_of_mem_repr (List.mem_of_mem_take hc)
  · exact Text.isDigit_of_mem_repr (List.mem_of_mem_drop hc)
  · rw [List.take_append_drop, ofDigitChars_repr, pow_zero, mul_one]
  · rw [List.length_drop]
    omega

/-- All digits behind the point, with zeros before them. -/
theorem denotes_fraction {m : ℕ} (hpoint : (-m : ℤ) = n) :
    Denotes ('0' :: '.' :: (List.replicate m '0' ++ digits)) s.1 n ['0']
      (List.replicate m '0' ++ digits) none 0 := by
  subst hd
  have hnil : s.1.repr.toList ≠ [] := List.ne_nil_of_length_pos (length_repr_pos s.1)
  have hfrac : List.replicate m '0' ++ s.1.repr.toList ≠ [] :=
    fun h => hnil (List.append_eq_nil_iff.1 h).2
  refine ⟨?_, List.cons_ne_nil _ _, ?_, fun c hc => ?_, ?_, ?_⟩
  · rw [numberText, fractionText_of_ne_nil hfrac, exponentText, List.append_nil]
    rfl
  · exact fun c hc => isDigit_of_mem_replicate (m := 1) hc
  · exact (List.mem_append.1 hc).elim isDigit_of_mem_replicate Text.isDigit_of_mem_repr
  · have hzeros := ofDigitChars_zeros 1 (List.replicate m '0' ++ s.1.repr.toList)
    rw [pow_zero, mul_one]
    exact hzeros.trans ((ofDigitChars_zeros m _).trans (ofDigitChars_repr s.1))
  · rw [Option.getD_none, List.length_append, List.length_replicate]
    omega

end Digits

theorem exists_denotes (s : Significand) (n : ℤ) :
    ∃ int frac e z, Denotes (decimalText s n) s.1 n int frac e z := by
  have hpos := length_repr_pos s.1
  unfold decimalText
  generalize hd : s.1.repr.toList = digits at hpos
  simp only []
  by_cases hrange : -5 ≤ n ∧ n ≤ 21
  · rw [if_pos hrange]
    by_cases hlong : n ≥ digits.length
    · have h := denotes_whole (n := n) (e := none) (z := (n - digits.length).toNat) hd (by
        rw [Option.getD_none]
        omega)
      rw [if_pos hlong]
      exact ⟨_, _, _, _, by simpa [exponentText] using h⟩
    · rw [if_neg hlong]
      by_cases hpos' : n > 0
      · have h := denotes_split (n := n) (e := none) (m := n.toNat) hd (by omega) (by omega) (by
          rw [Option.getD_none]
          omega)
        rw [if_pos hpos']
        exact ⟨_, _, _, _, by simpa [exponentText] using h⟩
      · have h := denotes_fraction (n := n) (m := (-n).toNat) hd (by omega)
        rw [if_neg hpos']
        exact ⟨_, _, _, _, h⟩
  · rw [if_neg hrange, exponentText_pred hrange]
    by_cases hone : digits.length = 1
    · have h := denotes_whole (n := n) (e := some (n - 1)) (z := 0) hd (by
        rw [Option.getD_some]
        omega)
      rw [if_pos hone]
      exact ⟨_, _, _, _, h⟩
    · have h := denotes_split (n := n) (e := some (n - 1)) (m := 1) hd one_pos (by omega) (by
        rw [Option.getD_some]
        omega)
      rw [if_neg hone]
      exact ⟨_, _, _, _, h⟩

/-- Zeros behind digits that do not end in one are counted. -/
theorem mul_pow_ten_inj {s s' z z' : ℕ} (hs : s % 10 ≠ 0) (hs' : s' % 10 ≠ 0)
    (h : s * 10 ^ z = s' * 10 ^ z') : s = s' ∧ z = z' := by
  induction z generalizing z' with
  | zero =>
    rcases z' with _ | z'
    · exact ⟨by simpa using h, rfl⟩
    · refine absurd ?_ hs
      rw [pow_zero, mul_one] at h
      rw [h, pow_succ, ← mul_assoc, Nat.mul_mod_left]
  | succ z ih =>
    rcases z' with _ | z'
    · refine absurd ?_ hs'
      rw [pow_zero, mul_one] at h
      rw [← h, pow_succ, ← mul_assoc, Nat.mul_mod_left]
    · rw [pow_succ, pow_succ, ← mul_assoc, ← mul_assoc] at h
      obtain ⟨hs, hz⟩ := ih (Nat.eq_of_mul_eq_mul_right (by decide) h)
      exact ⟨hs, congrArg (· + 1) hz⟩

theorem decimalText_inj (h : decimalText s n = decimalText s' n') : s = s' ∧ n = n' := by
  obtain ⟨int, frac, e, z, hd⟩ := exists_denotes s n
  obtain ⟨int', frac', e', z', hd'⟩ := exists_denotes s' n'
  rw [hd.text_eq, hd'.text_eq] at h
  obtain ⟨rfl, rfl, rfl⟩ :=
    numberText_inj hd.int_digits hd'.int_digits hd.frac_digits hd'.frac_digits h
  -- The digits around the point are the same, so the significands are, and the zeros behind them.
  obtain ⟨hs, rfl⟩ := mul_pow_ten_inj s.2 s'.2 (hd.value_eq.symm.trans hd'.value_eq)
  obtain rfl := Subtype.ext hs
  have := hd.point_eq.symm.trans hd'.point_eq
  exact ⟨rfl, by omega⟩

theorem isNumberChar_of_mem_exponentText {c : Char} (h : c ∈ exponentText e) :
    isNumberChar c = true := by
  rcases e with _ | e
  · cases h
  · rcases List.mem_cons.1 h with rfl | h
    · rfl
    · rcases List.mem_cons.1 h with rfl | h
      · split <;> rfl
      · simp [isNumberChar, Text.isDigit_of_mem_repr h]

theorem isNumberChar_of_mem_numberText (hint : ∀ c ∈ int, c.isDigit = true)
    (hfrac : ∀ c ∈ frac, c.isDigit = true) {c : Char} (h : c ∈ numberText int frac e) :
    isNumberChar c = true := by
  rcases List.mem_append.1 h with h | h
  · simp [isNumberChar, hint c h]
  · rcases List.mem_append.1 h with h | h
    · rcases frac with _ | ⟨d, frac⟩
      · cases h
      · rcases List.mem_cons.1 h with rfl | h
        · rfl
        · simp [isNumberChar, hfrac c h]
    · exact isNumberChar_of_mem_exponentText h

theorem head_decimalText (s : Significand) (n : ℤ) :
    ∃ c text, decimalText s n = c :: text ∧ c.isDigit = true := by
  obtain ⟨int, frac, e, z, hd⟩ := exists_denotes s n
  obtain ⟨c, int, rfl⟩ := List.exists_cons_of_ne_nil hd.int_ne_nil
  exact ⟨c, _, hd.text_eq, hd.int_digits c List.mem_cons_self⟩

theorem decimalText_ne_zero (s : Significand) (n : ℤ) : decimalText s n ≠ ['0'] := by
  intro h
  obtain ⟨int, frac, e, z, hd⟩ := exists_denotes s n
  have hzero : numberText int frac e = numberText ['0'] [] none := hd.text_eq.symm.trans h
  obtain ⟨rfl, rfl, -⟩ := numberText_inj hd.int_digits
    (fun c hc => isDigit_of_mem_replicate (m := 1) hc) hd.frac_digits (by simp) hzero
  have hvalue : 0 = s.1 * 10 ^ z := hd.value_eq
  rcases Nat.mul_eq_zero.1 hvalue.symm with hs | hten
  · exact s.2 (by rw [hs])
  · exact absurd hten (pow_ne_zero z (by decide))

def JsNumber.isFinite : JsNumber → Bool
  | .infinite _ => false
  | .nan => false
  | _ => true

theorem isNumberChar_of_mem_stringify {x : JsNumber} (hx : x.isFinite = true) {c : Char}
    (h : c ∈ x.stringify) : isNumberChar c = true := by
  rcases x with _ | negative | _ | ⟨negative, s, n⟩
  · obtain rfl := List.mem_singleton.1 h
    rfl
  · cases hx
  · cases hx
  · rcases List.mem_append.1 h with h | h
    · cases negative
      · cases h
      · obtain rfl := List.mem_singleton.1 h
        rfl
    · obtain ⟨int, frac, e, z, hd⟩ := exists_denotes s n
      rw [hd.text_eq] at h
      exact isNumberChar_of_mem_numberText hd.int_digits hd.frac_digits h

theorem minus_ne_decimalText (s s' : Significand) (n n' : ℤ) :
    '-' :: decimalText s n ≠ decimalText s' n' := by
  obtain ⟨c, text, htext, hc⟩ := head_decimalText s' n'
  rw [htext]
  intro h
  rw [← (List.cons.inj h).1] at hc
  cases hc

theorem zero_ne_stringify (negative : Bool) (s : Significand) (n : ℤ) :
    JsNumber.zero.stringify ≠ (JsNumber.finite negative s n).stringify := by
  intro h
  cases negative with
  | false => exact decimalText_ne_zero s n h.symm
  | true => exact absurd (List.cons.inj h).1 (by decide)

theorem finite_inj {negative negative' : Bool}
    (h : (JsNumber.finite negative s n).stringify = (JsNumber.finite negative' s' n').stringify) :
    JsNumber.finite negative s n = .finite negative' s' n' := by
  cases negative with
  | false =>
    cases negative' with
    | false =>
      obtain ⟨rfl, rfl⟩ : s = s' ∧ n = n' := decimalText_inj h
      rfl
    | true => exact absurd h.symm (minus_ne_decimalText s' s n' n)
  | true =>
    cases negative' with
    | false => exact absurd h (minus_ne_decimalText s s' n n')
    | true =>
      obtain ⟨rfl, rfl⟩ : s = s' ∧ n = n' := decimalText_inj (List.cons.inj h).2
      rfl

theorem JsNumber.stringify_inj {x y : JsNumber} (hx : x.isFinite = true) (hy : y.isFinite = true)
    (h : x.stringify = y.stringify) : x = y := by
  cases x with
  | infinite | nan => cases hx
  | zero =>
    cases y with
    | infinite | nan => cases hy
    | zero => rfl
    | finite negative s n => exact absurd h (zero_ne_stringify negative s n)
  | finite negative s n =>
    cases y with
    | infinite | nan => cases hy
    | zero => exact absurd h.symm (zero_ne_stringify negative s n)
    | finite negative' s' n' => exact finite_inj h

end Numbers

/-! ## Strings -/

section Strings

/-- The code point's number. -/
def CodePoint.value : CodePoint → ℕ
  | .char c => c.toNat
  | .surrogate u => 0xd800 + u

theorem CodePoint.value_inj {x y : CodePoint} (h : x.value = y.value) : x = y := by
  have hchar : ∀ c : Char, c.toNat < 0xd800 ∨ 0xdfff < c.toNat := fun c =>
    c.valid.imp id fun h => h.1
  rcases x with c | u <;> rcases y with c' | u' <;> simp only [value] at h
  · rw [Char.toNat_inj.1 h]
  · have := hchar c
    omega
  · have := hchar c'
    omega
  · exact congrArg _ (Fin.ext (by omega))

theorem digitChar_inj : ∀ a < 16, ∀ b < 16, a.digitChar = b.digitChar → a = b := by decide

/-- Four hexadecimal digits say which number it is. -/
theorem unicodeEscape_inj {m n : ℕ} {u v : List Char} (hm : m < 65536) (hn : n < 65536)
    (h : unicodeEscape m ++ u = unicodeEscape n ++ v) : m = n ∧ u = v := by
  simp only [unicodeEscape, List.cons_append, List.nil_append, List.cons.injEq, true_and] at h
  obtain ⟨h3, h2, h1, h0, huv⟩ := h
  have hmod : ∀ k, k % 16 < 16 := fun k => Nat.mod_lt k (by decide)
  -- Digit by digit, from the highest.
  have h3 := digitChar_inj _ (hmod _) _ (hmod _) h3
  have h2 := digitChar_inj _ (hmod _) _ (hmod _) h2
  have h1 := digitChar_inj _ (hmod _) _ (hmod _) h1
  have h0 := digitChar_inj _ (hmod _) _ (hmod _) h0
  exact ⟨by omega, huv⟩

/-- The character an escape of its own stands for. -/
def unescapeLetter (letter : Char) : Char :=
  if letter = 'b' then '\x08'
  else if letter = 't' then '\t'
  else if letter = 'n' then '\n'
  else if letter = 'f' then '\x0c'
  else if letter = 'r' then '\r'
  else letter

theorem unescape_of_escapeLetter {c letter : Char} (h : escapeLetter c = some letter) :
    unescapeLetter letter = c ∧ letter ≠ 'u' := by
  unfold escapeLetter at h
  split_ifs at h with h1 h2 h3 h4 h5 h6 <;> cases h
  · exact ⟨h1.symm, by decide⟩
  · exact ⟨h2.symm, by decide⟩
  · exact ⟨h3.symm, by decide⟩
  · exact ⟨h4.symm, by decide⟩
  · exact ⟨h5.symm, by decide⟩
  · rcases h6 with rfl | rfl <;> decide

theorem ne_of_escapeLetter_none {c : Char} (h : escapeLetter c = none) :
    c ≠ '\"' ∧ c ≠ '\\' := by
  constructor <;> rintro rfl <;> exact absurd h (by decide)

/-- A code point is written as it is, with an escape of its own or with its number. -/
theorem quoteCodePoint_cases (x : CodePoint) :
    (∃ c, x = .char c ∧ quoteCodePoint x = [c] ∧ c ≠ '\"' ∧ c ≠ '\\')
      ∨ (∃ c letter, x = .char c ∧ escapeLetter c = some letter
        ∧ quoteCodePoint x = ['\\', letter])
      ∨ (quoteCodePoint x = unicodeEscape x.value ∧ x.value < 65536) := by
  rcases x with c | u
  · cases hletter : escapeLetter c with
    | some letter =>
      exact .inr (.inl ⟨c, letter, rfl, hletter, by simp only [quoteCodePoint, hletter]⟩)
    | none =>
      by_cases hlow : c.toNat < 0x20
      · refine .inr (.inr ⟨?_, hlow.trans (by decide)⟩)
        simp only [quoteCodePoint, hletter, if_pos hlow, CodePoint.value]
      · exact .inl ⟨c, rfl, by simp only [quoteCodePoint, hletter, if_neg hlow],
          ne_of_escapeLetter_none hletter⟩
  · exact .inr (.inr ⟨rfl, by have := u.2; simp only [CodePoint.value]; omega⟩)

theorem quoteCodePoint_ne_quote (x : CodePoint) (u v : List Char) :
    quoteCodePoint x ++ u ≠ '\"' :: v := by
  rcases quoteCodePoint_cases x with ⟨c, -, hx, hc, -⟩ | ⟨c, letter, -, -, hx⟩ | ⟨hx, -⟩ <;>
    rw [hx] <;> intro h
  · exact hc (List.cons.inj h).1
  · exact absurd (List.cons.inj h).1 (by decide)
  · exact absurd (List.cons.inj h).1 (by decide)

theorem reads_quoteCodePoint (x : CodePoint) :
    Text.Reads (fun _ => True) quoteCodePoint id x := by
  intro y u v _ _ h
  rcases quoteCodePoint_cases x with ⟨c, rfl, hx, -, hc⟩ | ⟨c, l, rfl, hl, hx⟩ | ⟨hx, hxlt⟩ <;>
    rcases quoteCodePoint_cases y with
      ⟨c', rfl, hy, -, hc'⟩ | ⟨c', l', rfl, hl', hy⟩ | ⟨hy, hylt⟩ <;>
    rw [hx, hy] at h
  · obtain ⟨rfl, rfl⟩ := List.cons.inj h
    exact ⟨rfl, rfl⟩
  · exact absurd (List.cons.inj h).1 hc
  · exact absurd (List.cons.inj h).1 hc
  · exact absurd (List.cons.inj h).1.symm hc'
  · obtain ⟨rfl, rfl⟩ := List.cons.inj (List.cons.inj h).2
    rw [← (unescape_of_escapeLetter hl).1, ← (unescape_of_escapeLetter hl').1]
    exact ⟨rfl, rfl⟩
  · exact absurd (List.cons.inj (List.cons.inj h).2).1 (unescape_of_escapeLetter hl).2
  · exact absurd (List.cons.inj h).1.symm hc'
  · exact absurd (List.cons.inj (List.cons.inj h).2).1.symm (unescape_of_escapeLetter hl').2
  · obtain ⟨hvalue, huv⟩ := unicodeEscape_inj hxlt hylt h
    exact ⟨CodePoint.value_inj hvalue, huv⟩

theorem quote_inj {s s' : JsString} {u v : List Char} (h : quote s ++ u = quote s' ++ v) :
    s = s' ∧ u = v := by
  simp only [quote, List.cons_append, List.append_assoc, List.nil_append, List.cons.injEq,
    true_and] at h
  exact Text.flatMap_inj reads_quoteCodePoint quoteCodePoint_ne_quote h

end Strings

/-! ## Values -/

namespace Json

mutual

/-- The value with null for its numbers that are not finite. -/
def nulled : Json → Json
  | .null => .null
  | .bool b => .bool b
  | .number x => if x.isFinite then .number x else .null
  | .string s => .string s
  | .array elements => .array (nulledElements elements)
  | .object members => .object (nulledMembers members)

def nulledElements : List Json → List Json
  | [] => []
  | x :: xs => nulled x :: nulledElements xs

def nulledMembers : List (JsString × Json) → List (JsString × Json)
  | [] => []
  | (name, x) :: members => (name, nulled x) :: nulledMembers members

end

def memberText (m : JsString × Json) : List Char := quote m.1 ++ ':' :: stringify m.2

def nulledMember (m : JsString × Json) : JsString × Json := (m.1, nulled m.2)

theorem stringifyElements_eq_map (xs : List Json) : stringifyElements xs = xs.map stringify := by
  induction xs with
  | nil => rfl
  | cons x xs ih => rw [stringifyElements, ih, List.map_cons]

theorem stringifyMembers_eq_map (ms : List (JsString × Json)) :
    stringifyMembers ms = ms.map memberText := by
  induction ms with
  | nil => rfl
  | cons m ms ih =>
    rw [stringifyMembers, ih, List.map_cons]
    rfl

theorem nulledElements_eq_map (xs : List Json) : nulledElements xs = xs.map nulled := by
  induction xs with
  | nil => rfl
  | cons x xs ih => rw [nulledElements, ih, List.map_cons]

theorem nulledMembers_eq_map (ms : List (JsString × Json)) :
    nulledMembers ms = ms.map nulledMember := by
  induction ms with
  | nil => rfl
  | cons m ms ih =>
    rw [nulledMembers, ih, List.map_cons]
    rfl

/-! ### The first character -/

/-- The kinds of values, as their first characters tell them. -/
def kind : Json → ℕ
  | .null => 0
  | .bool b => if b then 1 else 2
  | .number _ => 3
  | .string _ => 4
  | .array _ => 5
  | .object _ => 6

def leadKind (c : Char) : ℕ :=
  if isNumberChar c then 3
  else if c = 'n' then 0
  else if c = 't' then 1
  else if c = 'f' then 2
  else if c = '\"' then 4
  else if c = '[' then 5
  else if c = '\x7b' then 6
  else 7

theorem head_stringify_number {x : JsNumber} (hx : x.isFinite = true) :
    ∃ c text, x.stringify = c :: text ∧ leadKind c = 3 := by
  have hne : x.stringify ≠ [] := by
    rcases x with _ | negative | _ | ⟨_ | _, s, n⟩
    · exact List.cons_ne_nil _ _
    · exact List.cons_ne_nil _ _
    · exact List.cons_ne_nil _ _
    · obtain ⟨c, text, htext, -⟩ := head_decimalText s n
      exact fun h => List.cons_ne_nil c text (htext.symm.trans h)
    · exact List.cons_ne_nil _ _
  obtain ⟨c, text, htext⟩ := List.exists_cons_of_ne_nil hne
  refine ⟨c, text, htext, if_pos ?_⟩
  exact isNumberChar_of_mem_stringify hx (htext ▸ List.mem_cons_self)

theorem stringify_not_finite {x : JsNumber} (hx : ¬x.isFinite = true) :
    x.stringify = "null".toList := by
  cases x with
  | infinite | nan => rfl
  | zero => exact absurd rfl hx
  | finite negative s n => exact absurd rfl hx

theorem head_stringify (x : Json) :
    ∃ c text, stringify x = c :: text ∧ leadKind c = kind (nulled x) := by
  cases x with
  | null => exact ⟨_, _, rfl, rfl⟩
  | bool b => cases b <;> exact ⟨_, _, rfl, rfl⟩
  | number x =>
    by_cases hx : x.isFinite = true
    · obtain ⟨c, text, htext, hc⟩ := head_stringify_number hx
      exact ⟨c, text, htext, by rw [nulled, if_pos hx, hc, kind]⟩
    · refine ⟨'n', _, stringify_not_finite hx, ?_⟩
      rw [nulled, if_neg hx]
      rfl
  | string s => exact ⟨_, _, rfl, rfl⟩
  | array elements => exact ⟨_, _, rfl, rfl⟩
  | object members => exact ⟨_, _, rfl, rfl⟩

theorem kind_lt (x : Json) : kind x < 7 := by
  cases x with
  | bool b => cases b <;> decide
  | _ => exact Nat.lt_of_sub_eq_succ rfl

theorem kind_eq {x y : Json} {u v : List Char} (h : stringify x ++ u = stringify y ++ v) :
    kind (nulled x) = kind (nulled y) := by
  obtain ⟨c, text, hx, hc⟩ := head_stringify x
  obtain ⟨c', text', hy, hc'⟩ := head_stringify y
  rw [hx, hy] at h
  rw [← hc, ← hc', (List.cons.inj h).1]

theorem stringify_ne {stop : Char} (hstop : leadKind stop = 7) (x : Json) (u v : List Char) :
    stringify x ++ u ≠ stop :: v := by
  intro h
  obtain ⟨c, text, hx, hc⟩ := head_stringify x
  rw [hx] at h
  rw [(List.cons.inj h).1, hstop] at hc
  exact absurd (kind_lt (nulled x)) (by rw [← hc]; exact lt_irrefl 7)

/-! ### Reading a value off -/

/-- What may follow a value. -/
def Tail (u : List Char) : Prop := ∀ c ∈ u.head?, c = ',' ∨ c = ']' ∨ c = '\x7d'

theorem tail_cons {c : Char} (h : c = ',' ∨ c = ']' ∨ c = '\x7d') (u : List Char) :
    Tail (c :: u) := by
  intro c' hc'
  rwa [← Option.some.inj hc']

theorem Tail.not_isNumberChar {u : List Char} (h : Tail u) :
    ∀ c ∈ u.head?, ¬isNumberChar c = true := by
  intro c hc
  rcases h c hc with rfl | rfl | rfl <;> decide

theorem kind_number (x : JsNumber) :
    kind (nulled (.number x)) = 0 ∨ kind (nulled (.number x)) = 3 := by
  rw [nulled]
  split_ifs
  · exact .inr rfl
  · exact .inl rfl

theorem of_kind_null {x : Json} (h : kind (nulled x) = 0) :
    nulled x = .null ∧ stringify x = "null".toList := by
  cases x with
  | null => exact ⟨rfl, rfl⟩
  | bool b => cases b <;> cases h
  | number x =>
    by_cases hx : x.isFinite = true
    · rw [nulled, if_pos hx] at h
      cases h
    · exact ⟨by rw [nulled, if_neg hx], stringify_not_finite hx⟩
  | string s => cases h
  | array elements => cases h
  | object members => cases h

theorem of_kind_number {x : Json} (h : kind (nulled x) = 3) :
    ∃ n : JsNumber, x = .number n ∧ n.isFinite = true := by
  cases x with
  | number x =>
    by_cases hx : x.isFinite = true
    · exact ⟨x, rfl, hx⟩
    · rw [nulled, if_neg hx] at h
      cases h
  | bool b => cases b <;> cases h
  | null => cases h
  | string s => cases h
  | array elements => cases h
  | object members => cases h

theorem reads_null {x : Json} (hx : nulled x = .null) : Text.Reads Tail stringify nulled x := by
  intro y u v _ _ h
  have hk := kind_eq h
  rw [hx] at hk
  obtain ⟨-, htext⟩ := of_kind_null (x := x) (by rw [hx]; rfl)
  obtain ⟨hy, htext'⟩ := of_kind_null hk.symm
  rw [htext, htext'] at h
  exact ⟨hx.trans hy.symm, List.append_cancel_left h⟩

theorem reads_bool (b : Bool) : Text.Reads Tail stringify nulled (.bool b) := by
  intro y u v _ _ h
  have hk := kind_eq h
  cases y with
  | bool b' =>
    cases b <;> cases b' <;> cases hk
    · exact ⟨rfl, List.append_cancel_left h⟩
    · exact ⟨rfl, List.append_cancel_left h⟩
  | number x => rcases kind_number x with h | h <;> rw [h] at hk <;> cases b <;> cases hk
  | _ => cases b <;> cases hk

theorem reads_number {n : JsNumber} (hn : n.isFinite = true) :
    Text.Reads Tail stringify nulled (.number n) := by
  intro y u v hu hv h
  have hk := kind_eq h
  rw [nulled, if_pos hn] at hk
  obtain ⟨n', rfl, hn'⟩ := of_kind_number hk.symm
  obtain ⟨htext, huv⟩ := Text.stretch_inj (fun c => isNumberChar_of_mem_stringify hn)
    (fun c => isNumberChar_of_mem_stringify hn') hu.not_isNumberChar hv.not_isNumberChar h
  rw [JsNumber.stringify_inj hn hn' htext]
  exact ⟨rfl, huv⟩

theorem reads_string (s : JsString) : Text.Reads Tail stringify nulled (.string s) := by
  intro y u v _ _ h
  have hk := kind_eq h
  cases y with
  | string s' =>
    obtain ⟨rfl, huv⟩ := quote_inj h
    exact ⟨rfl, huv⟩
  | bool b' => cases b' <;> cases hk
  | number x => rcases kind_number x with h | h <;> rw [h] at hk <;> cases hk
  | _ => cases hk

theorem reads_array {xs : List Json} (hxs : ∀ x ∈ xs, Text.Reads Tail stringify nulled x) :
    Text.Reads Tail stringify nulled (.array xs) := by
  intro y u v _ _ h
  have hk := kind_eq h
  cases y with
  | array ys =>
    simp only [stringify, stringifyElements_eq_map, List.cons_append, List.append_assoc,
      List.nil_append, List.cons.injEq, true_and] at h
    obtain ⟨hmap, huv⟩ := Text.intercalate_inj (by decide)
      (fun u => tail_cons (.inl rfl) u) (fun u => tail_cons (.inr (.inl rfl)) u)
      (stringify_ne (by decide)) hxs h
    rw [nulled, nulled, nulledElements_eq_map, nulledElements_eq_map, hmap]
    exact ⟨rfl, huv⟩
  | bool b' => cases b' <;> cases hk
  | number x => rcases kind_number x with h | h <;> rw [h] at hk <;> cases hk
  | _ => cases hk

theorem reads_member {m : JsString × Json} (hm : Text.Reads Tail stringify nulled m.2) :
    Text.Reads Tail memberText nulledMember m := by
  intro m' u v hu hv h
  simp only [memberText, List.append_assoc, List.cons_append] at h
  obtain ⟨hname, hrest⟩ := quote_inj h
  obtain ⟨hx, huv⟩ := hm m'.2 u v hu hv (List.cons.inj hrest).2
  exact ⟨Prod.ext hname hx, huv⟩

theorem memberText_ne (m : JsString × Json) (u v : List Char) :
    memberText m ++ u ≠ '\x7d' :: v := fun h => absurd (List.cons.inj h).1 (by decide)

theorem reads_object {ms : List (JsString × Json)}
    (hms : ∀ m ∈ ms, Text.Reads Tail stringify nulled m.2) :
    Text.Reads Tail stringify nulled (.object ms) := by
  intro y u v _ _ h
  have hk := kind_eq h
  cases y with
  | object ms' =>
    simp only [stringify, stringifyMembers_eq_map, List.cons_append, List.append_assoc,
      List.nil_append, List.cons.injEq, true_and] at h
    obtain ⟨hmap, huv⟩ := Text.intercalate_inj (by decide)
      (fun u => tail_cons (.inl rfl) u) (fun u => tail_cons (.inr (.inr rfl)) u)
      memberText_ne (fun m hm => reads_member (hms m hm)) h
    rw [nulled, nulled, nulledMembers_eq_map, nulledMembers_eq_map, hmap]
    exact ⟨rfl, huv⟩
  | bool b' => cases b' <;> cases hk
  | number x => rcases kind_number x with h | h <;> rw [h] at hk <;> cases hk
  | _ => cases hk

mutual

/-- Every value can be read off before what may follow it. -/
theorem reads_stringify : ∀ x : Json, Text.Reads Tail stringify nulled x
  | .null => reads_null rfl
  | .bool b => reads_bool b
  | .number n =>
    if hn : n.isFinite = true then reads_number hn else reads_null (by rw [nulled, if_neg hn])
  | .string s => reads_string s
  | .array xs => reads_array (reads_elements xs)
  | .object ms => reads_object (reads_members ms)

theorem reads_elements : ∀ (xs : List Json), ∀ x ∈ xs, Text.Reads Tail stringify nulled x
  | [], _, hx => by cases hx
  | x :: xs, y, hy => by
    rcases List.mem_cons.1 hy with h | h
    · exact h ▸ reads_stringify x
    · exact reads_elements xs y h

theorem reads_members : ∀ (ms : List (JsString × Json)), ∀ m ∈ ms,
    Text.Reads Tail stringify nulled m.2
  | [], _, hm => by cases hm
  | (name, x) :: ms, m, hm => by
    rcases List.mem_cons.1 hm with h | h
    · exact h ▸ reads_stringify x
    · exact reads_members ms m h

end

mutual

theorem stringify_nulled : ∀ x : Json, stringify (nulled x) = stringify x
  | .null => rfl
  | .bool b => rfl
  | .number n => by
    by_cases hn : n.isFinite = true
    · rw [nulled, if_pos hn]
    · rw [nulled, if_neg hn]
      exact (stringify_not_finite hn).symm
  | .string s => rfl
  | .array xs => by rw [nulled, stringify, stringify, stringifyElements_nulled xs]
  | .object ms => by rw [nulled, stringify, stringify, stringifyMembers_nulled ms]

theorem stringifyElements_nulled : ∀ xs : List Json,
    stringifyElements (nulledElements xs) = stringifyElements xs
  | [] => rfl
  | x :: xs => by
    rw [nulledElements, stringifyElements, stringifyElements, stringify_nulled x,
      stringifyElements_nulled xs]

theorem stringifyMembers_nulled : ∀ ms : List (JsString × Json),
    stringifyMembers (nulledMembers ms) = stringifyMembers ms
  | [] => rfl
  | (name, x) :: ms => by
    rw [nulledMembers, stringifyMembers, stringifyMembers, stringify_nulled x,
      stringifyMembers_nulled ms]

end

/-- A text says which value was written, but for numbers that are not finite. -/
theorem stringify_eq_iff {x y : Json} : stringify x = stringify y ↔ nulled x = nulled y := by
  constructor
  · intro h
    have htail : Tail [] := fun c hc => by cases hc
    exact (reads_stringify x y [] [] htail htail (by rw [h])).1
  · intro h
    rw [← stringify_nulled x, ← stringify_nulled y, h]

end Json

end LaunchPad
