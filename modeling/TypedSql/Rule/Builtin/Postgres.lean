import TypedSql.Rule.Builtin.Shared

/-!
# Rules of Postgres

Durations are whole numbers of days or of months, which are cast where an operation needs an
`integer`.
-/

namespace TypedSql.Builtin

open Registration (unary binary func meth attr aggregate)

/-- `register`: the rules of Postgres. -/
def postgres : List Registration :=
  -- integer division truncates
  [binary .trueDiv .number .number .number s!"(cast({a} as numeric) / {b})"] ++
  ([.int, .number].flatMap fun t =>
    [binary .floorDiv t t t s!"floor(cast({a} as numeric) / {b})",
     binary .mod t t t s!"({a} - {b} * floor(cast({a} as numeric) / {b}))"]) ++
  [binary .mul .str .int .str s!"repeat({b}, cast({a} as integer))",
   binary .mul .str .str .int s!"repeat({a}, cast({b} as integer))",
   -- arithmetic of dates
   binary .add .date .date .dateDelta s!"({a} + cast({b} as integer))",
   binary .sub .date .date .dateDelta s!"({a} - cast({b} as integer))",
   binary .add .dateTime .dateTime .dateDelta
     s!"({a} + make_interval(days => cast({b} as integer)))",
   binary .sub .dateTime .dateTime .dateDelta
     s!"({a} - make_interval(days => cast({b} as integer)))",
   binary .add .date .date .monthDelta
     s!"cast({a} + make_interval(months => cast({b} as integer)) as date)",
   binary .sub .date .date .monthDelta
     s!"cast({a} - make_interval(months => cast({b} as integer)) as date)",
   binary .add .dateTime .dateTime .monthDelta
     s!"({a} + make_interval(months => cast({b} as integer)))",
   binary .sub .dateTime .dateTime .monthDelta
     s!"({a} - make_interval(months => cast({b} as integer)))"] ++
  -- equality: two nulls are equal
  ([.int, .number, .str, .clob, .date, .dateTime, .dateDelta, .monthDelta].flatMap fun t =>
    [binary .eq .bool t t s!"(case when {a} is not distinct from {b} then 1 else 0 end)",
     binary .ne .bool t t s!"(case when {a} is distinct from {b} then 1 else 0 end)"]) ++
  (orderings.map fun (op, symbol) =>
    binary op .bool .clob .clob s!"(case when {a} {symbol} {b} then 1 else 0 end)") ++
  -- containment and items
  ([.str, .clob].flatMap fun container =>
    [binary .contains .bool .str container s!"(case when strpos({b}, {a}) > 0 then 1 else 0 end)",
     binary .notContains .bool .str container
       s!"(case when strpos({b}, {a}) > 0 then 0 else 1 end)"]) ++
  [binary .item .str .str .int
     s!"substr({a}, (case when {b} < 0 then length({a}) + {b} else {b} end) + 1, 1)",
   -- bits
   binary .bitAnd .int .int .int s!"({a} & {b})",
   binary .bitOr .int .int .int s!"({a} | {b})",
   binary .bitXor .int .int .int s!"({a} # {b})",
   binary .shiftLeft .int .int .int s!"({a} << cast({b} as integer))",
   binary .shiftRight .int .int .int s!"({a} >> cast({b} as integer))",
   -- functions
   func "now" .dateTime [] "localtimestamp(0)",
   func "today" .date [] "current_date",
   func "int" .int [.number] s!"trunc({a})",
   func "int" .int [.str] s!"cast({a} as bigint)",
   func "float" .number [.str] s!"cast({a} as numeric)",
   func "str" .str [] "''",
   func "str" .str [.int] s!"cast({a} as text)",
   func "str" .str [.number] s!"cast({a} as text)",
   func "len" .int [.clob] s!"coalesce(length({a}), 0)",
   func "date" .date [.dateTime] s!"cast({a} as date)",
   func "date" .date [.int, .int, .int]
     s!"make_date(cast({a} as integer), cast({b} as integer), cast({c} as integer))",
   func "datetime" .dateTime [.date] s!"cast({a} as timestamp)",
   -- methods
   meth .str "startswith" .bool [.str] s!"(case when starts_with({a}, {b}) then 1 else 0 end)",
   meth .str "endswith" .bool [.str]
     s!"(case when right({a}, length({b})) = {b} then 1 else 0 end)",
   meth .str "find" .int [.str] s!"(strpos({a}, {b}) - 1)",
   meth .dateTime "weekday" .int [] s!"(cast(extract(isodow from {a}) as integer) - 1)",
   meth .dateTime "yearday" .int [] s!"cast(extract(doy from {a}) as integer)"] ++
  -- attributes
  (["year", "month", "day", "hour", "minute"].map fun part =>
    attr .dateTime part .int s!"cast(extract({part} from {a}) as integer)") ++
  [attr .dateTime "second" .int s!"cast(floor(extract(second from {a})) as integer)"]

end TypedSql.Builtin
