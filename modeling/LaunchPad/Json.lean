import LaunchPad.Lib.Members

/-!
# JSON texts

A document is what a client sends: its objects list their members in any order, and may repeat a
name. `JSON.parse` makes objects of them, whose own names come with the array indices first and then
in order of creation, and `JSON.stringify` visits them in that order. A string is the list of its
code points. A finite number is known by the decimal that is written for it: in a document that may
be any, and `JSON.parse` makes the double of it that is next to it, whose decimal is the shortest
that denotes it. Which double that is, is a parameter.
-/

namespace LaunchPad

/-- A character, or a surrogate without its other half. -/
inductive CodePoint
  | char (c : Char)
  | surrogate (u : Fin 2048)
deriving DecidableEq

/-- The code points of a string. The two halves of a pair are never next to each other in it; a list
in which they are stands for no string. -/
abbrev JsString := List CodePoint

/-- The digits of a number, which do not end in a zero. -/
abbrev Significand := { s : ℕ // s % 10 ≠ 0 }

/-- A zero has two signs, which are equal and written alike. `finite negative s n` is the number
whose digits are those of `s`, with the decimal point behind the first `n` of them. A document has
no infinite number and no `nan`, and a value has no finite numbers but doubles. -/
inductive JsNumber
  | zero
  | infinite (negative : Bool)
  | nan
  | finite (negative : Bool) (s : Significand) (n : ℤ)
deriving DecidableEq

inductive Json
  | null
  | bool (b : Bool)
  | number (x : JsNumber)
  | string (s : JsString)
  | array (elements : List Json)
  | object (members : List (JsString × Json))

/-! ## `JSON.parse` -/

/-- A name that is the decimal text of a number below 2 ^ 32 - 1. -/
def arrayIndex (name : JsString) : Option ℕ :=
  let chars := name.filterMap fun
    | .char c => some c
    | .surrogate _ => none
  let n := Nat.ofDigitChars 10 chars 0
  if name = n.repr.toList.map CodePoint.char ∧ n < 4294967295 then some n else none

namespace Json

mutual

/-- The document with doubles for its numbers. -/
def rounded (toDouble : JsNumber → JsNumber) : Json → Json
  | .null => .null
  | .bool b => .bool b
  | .number x => .number (toDouble x)
  | .string s => .string s
  | .array elements => .array (roundedElements toDouble elements)
  | .object members => .object (roundedMembers toDouble members)

def roundedElements (toDouble : JsNumber → JsNumber) : List Json → List Json
  | [] => []
  | x :: xs => rounded toDouble x :: roundedElements toDouble xs

def roundedMembers (toDouble : JsNumber → JsNumber) :
    List (JsString × Json) → List (JsString × Json)
  | [] => []
  | (name, x) :: members => (name, rounded toDouble x) :: roundedMembers toDouble members

end

mutual

/-- The members of objects as they are created, in the order in which they are visited. -/
def visited : Json → Json
  | .null => .null
  | .bool b => .bool b
  | .number x => .number x
  | .string s => .string s
  | .array elements => .array (visitedElements elements)
  | .object members =>
    .object (Members.arranged arrayIndex (Members.create (visitedMembers members)))

def visitedElements : List Json → List Json
  | [] => []
  | x :: xs => visited x :: visitedElements xs

def visitedMembers : List (JsString × Json) → List (JsString × Json)
  | [] => []
  | (name, x) :: members => (name, visited x) :: visitedMembers members

end

/-- The value `JSON.parse` makes of a document. -/
def parse (toDouble : JsNumber → JsNumber) (doc : Json) : Json := (doc.rounded toDouble).visited

end Json

/-! ## `JSON.stringify` -/

/-- `Number::toString` of a positive number. -/
def decimalText (s : Significand) (n : ℤ) : List Char :=
  let digits := s.1.repr.toList
  let k := digits.length
  if -5 ≤ n ∧ n ≤ 21 then
    if n ≥ k then digits ++ List.replicate (n - k).toNat '0'
    else if n > 0 then digits.take n.toNat ++ '.' :: digits.drop n.toNat
    else '0' :: '.' :: (List.replicate (-n).toNat '0' ++ digits)
  else
    let exponentSign := if n < 0 then '-' else '+'
    let exponent := 'e' :: exponentSign :: (n - 1).natAbs.repr.toList
    if k = 1 then digits ++ exponent else digits.take 1 ++ '.' :: (digits.drop 1 ++ exponent)

def JsNumber.stringify : JsNumber → List Char
  | .zero => ['0']
  | .infinite _ => "null".toList
  | .nan => "null".toList
  | .finite negative s n => (if negative then ['-'] else []) ++ decimalText s n

/-- `UnicodeEscape` -/
def unicodeEscape (n : ℕ) : List Char :=
  ['\\', 'u', (n / 4096 % 16).digitChar, (n / 256 % 16).digitChar, (n / 16 % 16).digitChar,
    (n % 16).digitChar]

/-- The letter of an escape of its own. -/
def escapeLetter (c : Char) : Option Char :=
  if c = '\x08' then some 'b'
  else if c = '\t' then some 't'
  else if c = '\n' then some 'n'
  else if c = '\x0c' then some 'f'
  else if c = '\r' then some 'r'
  else if c = '\"' ∨ c = '\\' then some c
  else none

def quoteCodePoint : CodePoint → List Char
  | .char c =>
    match escapeLetter c with
    | some letter => ['\\', letter]
    | none => if c.toNat < 0x20 then unicodeEscape c.toNat else [c]
  | .surrogate u => unicodeEscape (0xd800 + u)

/-- `QuoteJSONString` -/
def quote (s : JsString) : List Char := '\"' :: (s.flatMap quoteCodePoint ++ ['\"'])

namespace Json

mutual

def stringify : Json → List Char
  | .null => "null".toList
  | .bool b => if b then "true".toList else "false".toList
  | .number x => x.stringify
  | .string s => quote s
  | .array elements => '[' :: ([','].intercalate (stringifyElements elements) ++ [']'])
  | .object members => '\x7b' :: ([','].intercalate (stringifyMembers members) ++ ['\x7d'])

def stringifyElements : List Json → List (List Char)
  | [] => []
  | x :: xs => stringify x :: stringifyElements xs

def stringifyMembers : List (JsString × Json) → List (List Char)
  | [] => []
  | (name, x) :: members => (quote name ++ ':' :: stringify x) :: stringifyMembers members

end

def isContainer : Json → Bool
  | .array _ | .object _ => true
  | _ => false

end Json

/-- A body `express.json()` accepts: its parser is strict. -/
structure JsonBody where
  doc : Json
  strict : doc.isContainer = true

/-- `JSON.stringify(req.body)`, where `express.json()` has made `req.body` of the document. A
container is truthy. -/
def JsonBody.canonicalBody (toDouble : JsNumber → JsNumber) (b : JsonBody) : String :=
  String.ofList (b.doc.parse toDouble).stringify

end LaunchPad
