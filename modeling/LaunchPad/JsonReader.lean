import LaunchPad.Json
import LaunchPad.Lib.Reading
import Mathlib.Data.Nat.MaxPowDiv

/-!
# Reading JSON texts

`JSON.parse` on a text, which is read as a document. Values are nested no deeper than the text is
long, so that much fuel is enough.
-/

namespace LaunchPad

open Reading

abbrev JsonReader (β : Type) := Reader CodePoint β

def JsString.ofChars (cs : List Char) : JsString := cs.map .char

def JsString.ofString (s : String) : JsString := .ofChars s.toList

/-! ## White space and literals -/

def isSpace (x : CodePoint) : Bool :=
  x = .char ' ' || x = .char '\t' || x = .char '\n' || x = .char '\r'

def skipSpace (text : JsString) : JsString := text.dropWhile isSpace

def readLiteral {β : Type} (word : List Char) (x : β) : JsonReader β := fun text =>
  if JsString.ofChars word <+: text then some (x, text.drop word.length) else none

/-! ## Strings -/

/-- The halves of a pair, which make one character. -/
def isPair (u v : Fin 2048) : Bool := u.val < 1024 && 1024 ≤ v.val

/-- A code point in front of others. -/
def CodePoint.join (x : CodePoint) (s : JsString) : JsString :=
  match x, s with
  | .surrogate u, .surrogate v :: rest =>
    if isPair u v then .char (Char.ofNat (0x10000 + u.val * 1024 + (v.val - 1024))) :: rest
    else x :: s
  | _, _ => x :: s

def JsString.joined (s : JsString) : JsString := s.foldr CodePoint.join []

/-- The code point of a code unit. -/
def CodePoint.ofUnit (n : ℕ) : CodePoint :=
  if h : 0xd800 ≤ n ∧ n < 0xd800 + 2048 then
    .surrogate ⟨n - 0xd800, Nat.sub_lt_left_of_lt_add h.1 h.2⟩
  else .char (Char.ofNat n)

def hexDigit (c : Char) : Option ℕ :=
  if c.isDigit then some (c.toNat - '0'.toNat)
  else if 'a' ≤ c ∧ c ≤ 'f' then some (c.toNat - 'a'.toNat + 10)
  else if 'A' ≤ c ∧ c ≤ 'F' then some (c.toNat - 'A'.toNat + 10)
  else none

/-- `JSONEscapeSequence`, behind the backslash. -/
def readEscape : JsonReader CodePoint
  | .char 'u' :: .char a :: .char b :: .char c :: .char d :: rest =>
    match hexDigit a, hexDigit b, hexDigit c, hexDigit d with
    | some a, some b, some c, some d =>
      some (.ofUnit (a * 4096 + b * 256 + c * 16 + d), rest)
    | _, _, _, _ => none
  | .char c :: rest =>
    if c = '\"' ∨ c = '\\' ∨ c = '/' then some (.char c, rest)
    else if c = 'b' then some (.char '\x08', rest)
    else if c = 'f' then some (.char '\x0c', rest)
    else if c = 'n' then some (.char '\n', rest)
    else if c = 'r' then some (.char '\r', rest)
    else if c = 't' then some (.char '\t', rest)
    else none
  | _ => none

def readCodePoint : JsonReader CodePoint
  | .char c :: rest =>
    if c = '\\' then readEscape rest
    else if c.toNat < 0x20 then none
    else some (.char c, rest)
  | x :: rest => some (x, rest)
  | [] => none

/-- A string, behind its first quotation mark. -/
def readString : JsonReader JsString := fun text =>
  (itemsUntil readCodePoint (.char '\"') (text.length + 1) text).map fun p =>
    (JsString.joined p.1, p.2)

/-! ## Numbers -/

def takeDigits : JsString → List Char × JsString
  | .char c :: text =>
    if c.isDigit then (c :: (takeDigits text).1, (takeDigits text).2) else ([], .char c :: text)
  | text => ([], text)

/-- `d * 10 ^ e`. -/
def JsNumber.ofDecimal (negative : Bool) (d : ℕ) (e : ℤ) : JsNumber :=
  if h : d = 0 then .zero
  else
    let s : Significand :=
      ⟨d.divMaxPow 10, fun hs => Nat.not_dvd_divMaxPow (by decide) h (Nat.dvd_of_mod_eq_zero hs)⟩
    .finite negative s (e + padicValNat 10 d + s.1.repr.toList.length)

def readSign : JsString → Bool × JsString
  | .char '-' :: text => (true, text)
  | text => (false, text)

/-- The digits behind the point, or none. -/
def readFraction : JsString → Option (List Char × JsString)
  | .char '.' :: text =>
    let (frac, text) := takeDigits text
    if frac = [] then none else some (frac, text)
  | text => some ([], text)

def readExponentDigits (negative : Bool) (text : JsString) : Option (ℤ × JsString) :=
  let (digits, text) := takeDigits text
  let e : ℤ := Nat.ofDigitChars 10 digits 0
  if digits = [] then none else some (if negative then -e else e, text)

def readExponent : JsString → Option (ℤ × JsString)
  | .char c :: text =>
    if c = 'e' ∨ c = 'E' then
      match text with
      | .char '-' :: text => readExponentDigits true text
      | .char '+' :: text => readExponentDigits false text
      | text => readExponentDigits false text
    else some (0, .char c :: text)
  | text => some (0, text)

/-- The digits before the point begin with a zero only where there are no others. -/
def readDecimal (text : JsString) : Option (JsNumber × JsString) :=
  let (negative, text) := readSign text
  let (int, text) := takeDigits text
  if int = [] ∨ int.head? = some '0' ∧ int ≠ ['0'] then none
  else
    match readFraction text with
    | none => none
    | some (frac, text) =>
      match readExponent text with
      | none => none
      | some (e, text) =>
        some (.ofDecimal negative (Nat.ofDigitChars 10 (int ++ frac) 0) (e - frac.length), text)

/-! ## Values -/

namespace Json

/-- A name, a colon and a value. -/
def readMember (readValue : JsonReader Json) : JsonReader (JsString × Json) := fun text =>
  match skipSpace text with
  | [] => none
  | c :: text =>
    if c = .char '\"' then
      match readString text with
      | none => none
      | some (name, text) =>
        match skipSpace text with
        | [] => none
        | c :: text =>
          if c = .char ':' then
            match readValue text with
            | none => none
            | some (x, text) => some ((name, x), text)
          else none
    else none

/-- What stands between brackets. -/
def readList {β : Type} (fuel : ℕ) (read : JsonReader β) (stop : CodePoint) :
    JsonReader (List β) := fun text =>
  match skipSpace text with
  | [] => none
  | c :: rest =>
    if c = stop then some ([], rest)
    else separated read skipSpace (.char ',') stop fuel text

def readValue : ℕ → JsonReader Json
  | 0, _ => none
  | fuel + 1, text =>
    match skipSpace text with
    | [] => none
    | c :: rest =>
      if c = .char '\"' then (readString rest).map fun p => (.string p.1, p.2)
      else if c = .char '[' then
        (readList fuel (readValue fuel) (.char ']') rest).map fun p => (.array p.1, p.2)
      else if c = .char '\x7b' then
        (readList fuel (readMember (readValue fuel)) (.char '\x7d') rest).map
          fun p => (.object p.1, p.2)
      else if c = .char 'n' then readLiteral "null".toList .null (c :: rest)
      else if c = .char 't' then readLiteral "true".toList (.bool true) (c :: rest)
      else if c = .char 'f' then readLiteral "false".toList (.bool false) (c :: rest)
      else (readDecimal (c :: rest)).map fun p => (.number p.1, p.2)

/-- `JSON.parse`. There is nothing but white space behind the value. -/
def ofText (toDouble : JsNumber → JsNumber) (text : JsString) : Option Json :=
  match readValue (text.length + 1) text with
  | none => none
  | some (doc, rest) => if skipSpace rest = [] then some (doc.parse toDouble) else none

/-! ## The numbers and strings of a value -/

mutual

def numbers : Json → List JsNumber
  | .number x => [x]
  | .array elements => elementNumbers elements
  | .object members => memberNumbers members
  | _ => []

def elementNumbers : List Json → List JsNumber
  | [] => []
  | x :: xs => numbers x ++ elementNumbers xs

def memberNumbers : List (JsString × Json) → List JsNumber
  | [] => []
  | (_, x) :: members => numbers x ++ memberNumbers members

end

mutual

/-- The strings and the names. -/
def strings : Json → List JsString
  | .string s => [s]
  | .array elements => elementStrings elements
  | .object members => memberStrings members
  | _ => []

def elementStrings : List Json → List JsString
  | [] => []
  | x :: xs => strings x ++ elementStrings xs

def memberStrings : List (JsString × Json) → List JsString
  | [] => []
  | (name, x) :: members => name :: (strings x ++ memberStrings members)

end

/-- The numbers of the value are doubles, and the halves of pairs in it are one character. -/
structure Readable (toDouble : JsNumber → JsNumber) (x : Json) : Prop where
  doubles : ∀ m ∈ x.numbers, toDouble m = m
  joined : ∀ s ∈ x.strings, JsString.joined s = s

end Json

/-- A value of the program: its objects have each name once, in the order in which they are
visited. -/
structure JsValue (toDouble : JsNumber → JsNumber) where
  json : Json
  visited : json.visited = json
  readable : json.Readable toDouble

end LaunchPad
