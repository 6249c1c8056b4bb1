import TypedSql.Schema.Basic

/-!
# Dotted paths

A path is a text of segments separated by dots. It is resolved from left to right: the first segment
is a field of the schema, and each further one a field of the group that the field before it refers
to. Queries take paths apart from the right, at the last dot.
-/

namespace TypedSql

namespace Path

/-- The segments of a path; there is one more than there are dots. -/
def segmentChars : List Char → List (List Char)
  | [] => [[]]
  | c :: cs =>
    if c = '.' then [] :: segmentChars cs
    else
      match segmentChars cs with
      | [] => [[c]]
      | s :: rest => (c :: s) :: rest

/-- The segments of a path. -/
def segments (path : String) : List String := (segmentChars path.toList).map String.ofList

/-- Splits a text at its last dot. -/
def splitLastChars : List Char → Option (List Char × List Char)
  | [] => none
  | c :: cs =>
    match splitLastChars cs with
    | some (parent, identifier) => some (c :: parent, identifier)
    | none => if c = '.' then some ([], cs) else none

/-- The path before the last dot and the identifier behind it; `none` for a path without dots. -/
def splitLast? (path : String) : Option (String × String) :=
  (splitLastChars path.toList).map fun (parent, identifier) =>
    (String.ofList parent, String.ofList identifier)

/-- The parts of a text that end before a dot, and the whole text. -/
def prefixChars : List Char → List (List Char)
  | [] => [[]]
  | c :: cs =>
    let rest := (prefixChars cs).map (c :: ·)
    if c = '.' then [] :: rest else rest

/-- The paths that a path passes through, from its first segment to itself. -/
def prefixes (path : String) : List String := (prefixChars path.toList).map String.ofList

end Path

namespace Schema

/-- `get`: the field of a schema with the given identifier. -/
def get? (s : Schema) (identifier : String) : Option Field := findField s.fields identifier

/-- The fields that the segments lead to, one after the other, from a field on. -/
def follow (f : Field) : List String → Option (List Field)
  | [] => some [f]
  | segment :: rest => do
    let reference ← f.reference
    let next ← reference.group.get? segment
    let fields ← follow next rest
    some (f :: fields)

/-- `resolve_chain`: the fields along a path. -/
def chain? (s : Schema) (path : String) : Option (List Field) :=
  match Path.segments path with
  | [] => none
  | segment :: rest => do
    let f ← s.get? segment
    follow f rest

/-- `resolve`: the field that a path leads to. -/
def resolve? (s : Schema) (path : String) : Option Field := (s.chain? path).bind List.getLast?

end Schema

end TypedSql
