import TypedSql.Binary64.Scaled
import TypedSql.Json.Basic
import TypedSql.Text.Numeral

/-!
# Reading JSON

The strict grammar of JSON: no comments, no trailing commas, no leading zeros, no raw control
characters in strings, no unpaired surrogates. Arrays and objects may be nested 127 deep. Of two
members with one key the later counts.

Readers take the characters that are left and return what they read with the characters behind it.
The readers of nested values carry a bound on the number of their steps; `parse` starts them with
more steps than any text of its length needs.
-/

namespace TypedSql.Json

/-- Reads a value from the start of a text and returns it with the rest; `none` if the text is
wrong. -/
abbrev Reader (α : Type) := List Char → Option (α × List Char)

/-- Skips blanks, tabs and line ends. -/
def skipBlanks (cs : List Char) : List Char :=
  cs.dropWhile fun c => c = ' ' || c = '\n' || c = '\t' || c = '\r'

/-- The value of a hexadecimal digit. -/
def hexValue? (c : Char) : Option Nat :=
  if c.isDigit then some (c.toNat - '0'.toNat)
  else if 'a' ≤ c ∧ c ≤ 'f' then some (c.toNat - 'a'.toNat + 10)
  else if 'A' ≤ c ∧ c ≤ 'F' then some (c.toNat - 'A'.toNat + 10)
  else none

/-- Reads four hexadecimal digits. -/
def readHex : Reader Nat
  | a :: b :: c :: d :: rest => do
    let a ← hexValue? a
    let b ← hexValue? b
    let c ← hexValue? c
    let d ← hexValue? d
    some (((a * 16 + b) * 16 + c) * 16 + d, rest)
  | _ => none

/-- Reads what follows the letter of a `u` escape: a code unit, or a pair of surrogates. -/
def readUnicode (cs : List Char) : Option (Char × List Char) := do
  let (unit, rest) ← readHex cs
  if 0xD800 ≤ unit ∧ unit ≤ 0xDBFF then
    match rest with
    | '\\' :: 'u' :: rest => do
      let (low, rest) ← readHex rest
      if 0xDC00 ≤ low ∧ low ≤ 0xDFFF then
        some (Char.ofNat (0x10000 + (unit - 0xD800) * 0x400 + (low - 0xDC00)), rest)
      else none
    | _ => none
  else if 0xDC00 ≤ unit ∧ unit ≤ 0xDFFF then none
  else some (Char.ofNat unit, rest)

/-- Reads what follows the backslash of an escape. -/
def readEscape : Reader Char
  | '"' :: rest => some ('"', rest)
  | '\\' :: rest => some ('\\', rest)
  | '/' :: rest => some ('/', rest)
  | 'b' :: rest => some (Char.ofNat 8, rest)
  | 'f' :: rest => some (Char.ofNat 12, rest)
  | 'n' :: rest => some ('\n', rest)
  | 'r' :: rest => some ('\r', rest)
  | 't' :: rest => some ('\t', rest)
  | 'u' :: rest => readUnicode rest
  | _ => none

/-- Reads a string behind its opening quote; `read` holds the characters so far, the last first. -/
def readChars : Nat → List Char → Reader String
  | 0, _, _ => none
  | _ + 1, _, [] => none
  | fuel + 1, read, c :: cs =>
    if c = '"' then some (String.ofList read.reverse, cs)
    else if c = '\\' then do
      let (c, cs) ← readEscape cs
      readChars fuel (c :: read) cs
    else if c.toNat < 32 then none
    else readChars fuel (c :: read) cs

/-- Reads a string behind its opening quote. -/
def readString (cs : List Char) : Option (String × List Char) := readChars (cs.length + 1) [] cs

/-- Appends digits to a significand of 64 bits as long as it does not overflow. Returns the
significand and the number of digits that were taken. -/
def significandOf : Nat → List Char → Nat × Nat
  | n, [] => (n, 0)
  | n, c :: cs =>
    let next := n * 10 + (c.toNat - '0'.toNat)
    if next < UInt64.size then
      let (m, taken) := significandOf next cs
      (m, taken + 1)
    else
      (n, 0)

/-- The exponent behind the mark of one: its sign and its digits. -/
def readExponent : Reader (Bool × List Char)
  | cs =>
    let (negative, cs) := match cs with
      | '+' :: rest => (false, rest)
      | '-' :: rest => (true, rest)
      | _ => (false, cs)
    let (digits, rest) := Text.splitDigits cs.length cs
    if digits.isEmpty then none else some ((negative, digits), rest)

/-- The floating-point number of a significand, the power of ten of its last digit and the written
exponent. An exponent beyond 31 bits makes the number zero or too large. -/
def floatOf (negative : Bool) (significand : Nat) (place : Int) (exponent : Bool × List Char) :
    Option Number :=
  let e := Text.valueOfDigits exponent.2
  if twoTo 31 ≤ e then
    if significand ≠ 0 ∧ !exponent.1 then none
    else some (.float ⟨negative, 0, Binary64.minExponent⟩)
  else
    let power : Int := if exponent.1 then place - e else place + e
    (Binary64.ofScaled negative significand power).map .float

/-- A number without fraction and exponent. -/
def wholeNumber (negative : Bool) (digits : List Char) : Option Number :=
  let n := Text.valueOfDigits digits
  if negative then
    if 0 < n ∧ n ≤ twoTo 63 then some (.whole (-(n : Int)))
    else
      let (significand, taken) := significandOf 0 digits
      (Binary64.ofScaled true significand (digits.length - taken)).map .float
  else if n < UInt64.size then some (.whole n)
  else
    let (significand, taken) := significandOf 0 digits
    (Binary64.ofScaled false significand (digits.length - taken)).map .float

/-- The significand of whole digits and a fraction, with the power of ten of its last digit. -/
def decimalParts (whole fraction : List Char) : Nat × Int :=
  let (n, taken) := significandOf 0 whole
  let (significand, places) := significandOf n fraction
  (significand, (whole.length : Int) - taken - places)

/-- Reads a number behind its minus sign. -/
def readNumber (negative : Bool) (cs : List Char) : Option (Number × List Char) :=
  let (whole, rest) := Text.splitDigits cs.length cs
  if whole.isEmpty || (whole.head? == some '0' && whole.length > 1) then none
  else
    match rest with
    | '.' :: rest =>
      let (fraction, rest) := Text.splitDigits rest.length rest
      if fraction.isEmpty then none
      else
        let (significand, place) := decimalParts whole fraction
        match rest with
        | c :: after =>
          if c = 'e' || c = 'E' then do
            let (exponent, rest) ← readExponent after
            let n ← floatOf negative significand place exponent
            some (n, rest)
          else (floatOf negative significand place (false, [])).map fun n => (n, rest)
        | [] => (floatOf negative significand place (false, [])).map fun n => (n, rest)
    | c :: after =>
      if c = 'e' || c = 'E' then do
        let (exponent, rest) ← readExponent after
        let (significand, place) := decimalParts whole []
        let n ← floatOf negative significand place exponent
        some (n, rest)
      else (wholeNumber negative whole).map fun n => (n, rest)
    | [] => (wholeNumber negative whole).map fun n => (n, rest)

mutual

/-- Reads a value. `depth` is the number of containers that may still be opened. -/
def readValue : Nat → Nat → Reader Json
  | 0, _, _ => none
  | fuel + 1, depth, cs =>
    match skipBlanks cs with
    | 'n' :: 'u' :: 'l' :: 'l' :: rest => some (.null, rest)
    | 't' :: 'r' :: 'u' :: 'e' :: rest => some (.bool true, rest)
    | 'f' :: 'a' :: 'l' :: 's' :: 'e' :: rest => some (.bool false, rest)
    | '"' :: rest => (readString rest).map fun (s, rest) => (.str s, rest)
    | '-' :: rest => (readNumber true rest).map fun (n, rest) => (.number n, rest)
    | '[' :: rest =>
      match depth with
      | 0 => none
      | depth + 1 =>
        match skipBlanks rest with
        | ']' :: rest => some (.arr [], rest)
        | rest => (readItems fuel depth rest).map fun (items, rest) => (.arr items, rest)
    | '\x7b' :: rest =>
      match depth with
      | 0 => none
      | depth + 1 =>
        match skipBlanks rest with
        | '\x7d' :: rest => some (.obj [], rest)
        | rest => (readMembers fuel depth rest).map fun (members, rest) => (.object members, rest)
    | rest => (readNumber false rest).map fun (n, rest) => (.number n, rest)

/-- Reads the items of an array up to its end. -/
def readItems : Nat → Nat → Reader (List Json)
  | 0, _, _ => none
  | fuel + 1, depth, cs => do
    let (item, rest) ← readValue fuel depth cs
    match skipBlanks rest with
    | ',' :: rest => do
      let (items, rest) ← readItems fuel depth rest
      some (item :: items, rest)
    | ']' :: rest => some ([item], rest)
    | _ => none

/-- Reads the members of an object up to its end. -/
def readMembers : Nat → Nat → Reader (List (String × Json))
  | 0, _, _ => none
  | fuel + 1, depth, cs =>
    match skipBlanks cs with
    | '"' :: rest => do
      let (key, rest) ← readString rest
      match skipBlanks rest with
      | ':' :: rest => do
        let (value, rest) ← readValue fuel depth rest
        match skipBlanks rest with
        | ',' :: rest => do
          let (members, rest) ← readMembers fuel depth rest
          some ((key, value) :: members, rest)
        | '\x7d' :: rest => some ([(key, value)], rest)
        | _ => none
      | _ => none
    | _ => none

end

/-- The number of arrays and objects that may stand inside each other. -/
def maxDepth : Nat := 127

/-- Reads a whole text as one value. -/
def parse (text : String) : Option Json :=
  let cs := text.toList
  match readValue (2 * cs.length + 2) maxDepth cs with
  | some (value, rest) => if (skipBlanks rest).isEmpty then some value else none
  | none => none

end TypedSql.Json
