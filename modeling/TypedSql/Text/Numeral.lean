/-!
# Decimal numerals

Numbers written with the digits `0` to `9`, and the leading digits of a text.
-/

namespace TypedSql.Text

/-- The decimal digits of `n`, with zeros in front up to `width` characters. -/
def padded (width n : Nat) : List Char :=
  let digits := Nat.toDigits 10 n
  List.replicate (width - digits.length) '0' ++ digits

/-- The number that a list of decimal digits denotes. -/
def valueOfDigits (digits : List Char) : Nat := Nat.ofDigitChars 10 digits 0

/-- Splits off the leading decimal digits of a text, at most `limit` of them. -/
def splitDigits : Nat → List Char → List Char × List Char
  | limit + 1, c :: cs =>
    if c.isDigit then
      let (digits, rest) := splitDigits limit cs
      (c :: digits, rest)
    else
      ([], c :: cs)
  | _, cs => ([], cs)

/-- Reads a text that consists of decimal digits only, at least one of them. -/
def natOfDigits? (cs : List Char) : Option Nat :=
  if cs.isEmpty || !cs.all Char.isDigit then none else some (valueOfDigits cs)

/-- `text` with spaces behind it up to `width` characters. -/
def padRight (width : Nat) (text : String) : String :=
  text ++ String.ofList (List.replicate (width - text.toList.length) ' ')

end TypedSql.Text
