import TypedSql.Rule.Table

/-!
# Rules of both dialects

The rules whose SQL is the same in both dialects, or differs in the test for truth only. In the
templates `a`, `b` and `c` are the references to the first, the second and the third operand.
-/

namespace TypedSql.Builtin

open Registration (unary binary func meth attr aggregate)

/-- The first operand of a template. -/
def a : String := Template.referenceText ['1']

/-- The second operand of a template. -/
def b : String := Template.referenceText ['2']

/-- The third operand of a template. -/
def c : String := Template.referenceText ['3']

/-- `value_types`: the types of values; Postgres has no durations of seconds. -/
def valueTypes (d : Dialect) : List DataType :=
  DataType.all.filter fun t => t ≠ .null && (d ≠ .postgres || t ≠ .dateTimeDelta)

/-- `ordered_types`: the types whose values are ordered and can be compared as they are. -/
def orderedTypes (d : Dialect) : List DataType :=
  (valueTypes d).filter fun t => t ≠ .bool && t ≠ .clob

/-- `summable_types`: the types whose values can be added up. -/
def summableTypes (d : Dialect) : List DataType :=
  (valueTypes d).filter fun t => t ∈ [.int, .number, .dateDelta, .dateTimeDelta, .monthDelta]

/-- `truthy`: the condition that the first operand, of the given type, is true. -/
def truthy (d : Dialect) : DataType → String
  | .null => "1 = 0"
  | .bool => s!"{a} = 1"
  | .int | .number | .dateDelta | .dateTimeDelta | .monthDelta => s!"coalesce({a}, 0) <> 0"
  | .str | .clob =>
    match d with
    | .oracle => s!"{a} is not null"
    | .postgres => s!"coalesce({a}, '') <> ''"
  | .date | .dateTime => s!"{a} is not null"

/-- The comparisons by order with their SQL. -/
def orderings : List (BinaryOp × String) := [(.lt, "<"), (.le, "<="), (.gt, ">"), (.ge, ">=")]

/-- Arithmetic. -/
def arithmetic : List Registration :=
  ([.int, .number].flatMap fun t =>
    [binary .add t t t s!"({a} + {b})",
     binary .sub t t t s!"({a} - {b})",
     binary .mul t t t s!"({a} * {b})",
     unary .neg t t s!"(-{a})"]) ++
  [unary .bitNot .int .int s!"(-{a} - 1)",
   binary .add .str .str .str s!"({a} || {b})",
   binary .add .clob .clob .clob s!"({a} || {b})",
   binary .sub .dateDelta .date .date s!"({a} - {b})"] ++
  ([.dateDelta, .monthDelta].flatMap fun t =>
    [binary .add t t t s!"({a} + {b})",
     binary .sub t t t s!"({a} - {b})",
     binary .mul t .int t s!"({a} * {b})",
     unary .neg t t s!"(-{a})"])

/-- Comparison with null and identity tests. -/
def nullTests (d : Dialect) : List Registration :=
  [binary .eq .bool .null .null "1",
   binary .ne .bool .null .null "0",
   binary .is .bool .null .null "1",
   binary .isNot .bool .null .null "0"] ++
  (valueTypes d).flatMap fun t =>
    ([.eq, .is].flatMap fun op =>
      [binary op .bool .null t s!"(case when {b} is null then 1 else 0 end)",
       binary op .bool t .null s!"(case when {a} is null then 1 else 0 end)"]) ++
    ([.ne, .isNot].flatMap fun op =>
      [binary op .bool .null t s!"(case when {b} is null then 0 else 1 end)",
       binary op .bool t .null s!"(case when {a} is null then 0 else 1 end)"])

/-- Comparison by order. -/
def comparisons (d : Dialect) : List Registration :=
  (orderedTypes d).flatMap fun t =>
    orderings.map fun (op, symbol) =>
      binary op .bool t t s!"(case when {a} {symbol} {b} then 1 else 0 end)"

/-- Logic on values of all types; `and` and `or` return one of their operands. -/
def logic (d : Dialect) : List Registration :=
  [binary .and .null .null .null "null",
   binary .or .null .null .null "null",
   unary .not .bool .null "1",
   func "bool" .bool [] "0",
   func "bool" .bool [.null] "0"] ++
  (valueTypes d).flatMap fun t =>
    let cond := truthy d t
    [binary .and t t t s!"(case when {cond} then {b} else {a} end)",
     binary .or t t t s!"(case when {cond} then {a} else {b} end)",
     binary .and t .null t "null",
     binary .and t t .null s!"(case when {cond} then null else {a} end)",
     binary .or t .null t b,
     binary .or t t .null s!"(case when {cond} then {a} else null end)",
     unary .not .bool t s!"(case when {cond} then 0 else 1 end)",
     func "bool" .bool [t] s!"(case when {cond} then 1 else 0 end)"]

/-- Conversions between types. -/
def conversions : List Registration :=
  [func "int" .int [] "0",
   func "int" .int [.int] a,
   func "float" .number [] "0.0",
   func "float" .number [.number] a,
   func "str" .str [.null] "null",
   func "str" .str [.bool] s!"(case {a} when 0 then 'False' when 1 then 'True' else 'None' end)",
   func "str" .str [.str] a,
   func "str" .clob [.clob] a,
   func "str" .str [.date] s!"to_char({a}, 'YYYY-MM-DD')",
   func "str" .str [.dateTime] s!"to_char({a}, 'YYYY-MM-DD HH24:MI:SS')",
   func "date" .date [.date] a,
   func "datetime" .dateTime [.dateTime] a,
   func "days" .dateDelta [.int] a,
   func "weeks" .dateDelta [.int] s!"(7 * {a})",
   func "months" .monthDelta [.int] a,
   func "years" .monthDelta [.int] s!"(12 * {a})"]

/-- Functions and methods of strings. -/
def strings : List Registration :=
  [func "len" .int [.str] s!"coalesce(length({a}), 0)"] ++
  ([.str, .clob].flatMap fun t =>
    [func "lower" t [t] s!"lower({a})",
     func "upper" t [t] s!"upper({a})",
     meth t "lower" t [] s!"lower({a})",
     meth t "upper" t [] s!"upper({a})"]) ++
  [meth .str "strip" .str [] s!"trim({a})",
   meth .str "lstrip" .str [] s!"ltrim({a})",
   meth .str "rstrip" .str [] s!"rtrim({a})",
   meth .str "replace" .str [.str, .str] s!"replace({a}, {b}, {c})"]

/-- Aggregate functions. -/
def aggregates (d : Dialect) : List Registration :=
  ((.null :: valueTypes d).flatMap fun t =>
    [aggregate .count .int t s!"count({a})",
     aggregate .group t t a]) ++
  ((orderedTypes d).flatMap fun t =>
    [aggregate .min t t s!"min({a})",
     aggregate .max t t s!"max({a})"]) ++
  (summableTypes d).map fun t => aggregate .sum t t s!"sum({a})"

/-- `register`: the rules of both dialects. -/
def shared (d : Dialect) : List Registration :=
  arithmetic ++ nullTests d ++ comparisons d ++ logic d ++ conversions ++ strings ++ aggregates d

end TypedSql.Builtin
