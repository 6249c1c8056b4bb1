/-!
# Replacing text

Two ways to replace characters of a text: every occurrence of one character, and every occurrence of
a longer pattern. Both work on the characters of the text; the functions on strings wrap them.
-/

namespace TypedSql.Text

/-- The characters of a text with every occurrence of `mark` written twice. -/
def doubled (mark : Char) : List Char → List Char
  | [] => []
  | c :: cs => if c = mark then mark :: mark :: doubled mark cs else c :: doubled mark cs

/-- Replaces the occurrences of `pattern` from left to right, where the first `skip` characters are
part of an occurrence that has been replaced already. Occurrences do not overlap. -/
def replaceFrom (pattern replacement : List Char) : Nat → List Char → List Char
  | _, [] => []
  | skip + 1, _ :: cs => replaceFrom pattern replacement skip cs
  | 0, c :: cs =>
    if pattern.isPrefixOf (c :: cs) then
      replacement ++ replaceFrom pattern replacement (pattern.length - 1) cs
    else
      c :: replaceFrom pattern replacement 0 cs

/-- Replaces every occurrence of a non-empty `pattern` in `text`, from left to right. -/
def replace (text pattern replacement : String) : String :=
  String.ofList (replaceFrom pattern.toList replacement.toList 0 text.toList)

@[simp] theorem toList_replace (text pattern replacement : String) :
    (replace text pattern replacement).toList =
      replaceFrom pattern.toList replacement.toList 0 text.toList := by
  simp [replace]

end TypedSql.Text
