import TypedSql.Rule.Builtin.Shared

/-!
# Rules of Oracle

Durations are numbers of days, and month durations numbers of months. Some operations call functions
of the package `vsqlimpl_pkg`.
-/

namespace TypedSql.Builtin

open Registration (unary binary func meth attr aggregate)

/-- `pkg`: a call of a function of the package with the first two operands. -/
def packaged (function : String) : String := s!"vsqlimpl_pkg.{function}({a}, {b})"

/-- `register`: the rules of Oracle. -/
def oracle : List Registration :=
  [binary .trueDiv .number .number .number s!"({a} / {b})"] ++
  ([.int, .number].flatMap fun t =>
    [binary .floorDiv t t t s!"floor({a} / {b})",
     binary .mod t t t s!"({a} - {b} * floor({a} / {b}))"]) ++
  [binary .mul .str .int .str (packaged "mul_int_str"),
   binary .mul .str .str .int (packaged "mul_str_int"),
   -- arithmetic of dates
   binary .add .date .date .dateDelta s!"({a} + {b})",
   binary .sub .date .date .dateDelta s!"({a} - {b})",
   binary .add .dateTime .dateTime .dateTimeDelta s!"({a} + {b})",
   binary .sub .dateTime .dateTime .dateTimeDelta s!"({a} - {b})",
   binary .sub .dateTimeDelta .dateTime .dateTime s!"({a} - {b})",
   binary .add .date .date .monthDelta s!"add_months({a}, {b})",
   binary .sub .date .date .monthDelta s!"add_months({a}, -{b})",
   binary .add .dateTime .dateTime .monthDelta s!"add_months({a}, {b})",
   binary .sub .dateTime .dateTime .monthDelta s!"add_months({a}, -{b})",
   binary .add .dateTimeDelta .dateTimeDelta .dateTimeDelta s!"({a} + {b})",
   binary .sub .dateTimeDelta .dateTimeDelta .dateTimeDelta s!"({a} - {b})",
   binary .mul .dateTimeDelta .number .dateTimeDelta s!"({a} * {b})",
   unary .neg .dateTimeDelta .dateTimeDelta s!"(-{a})"] ++
  -- equality: two nulls are equal
  ([.int, .number, .str, .date, .dateTime, .dateDelta, .dateTimeDelta, .monthDelta].flatMap fun t =>
    [binary .eq .bool t t s!"decode({a}, {b}, 1, 0)",
     binary .ne .bool t t s!"decode({a}, {b}, 0, 1)"]) ++
  [binary .eq .bool .clob .clob (packaged "eq_clob_clob"),
   binary .ne .bool .clob .clob ("(1 - " ++ packaged "eq_clob_clob" ++ ")")] ++
  (orderings.map fun (op, symbol) =>
    binary op .bool .clob .clob
      s!"(case when dbms_lob.compare({a}, {b}) {symbol} 0 then 1 else 0 end)") ++
  -- containment and items
  [binary .contains .bool .str .str (packaged "contains_str_str"),
   binary .contains .bool .str .clob (packaged "contains_str_clob"),
   binary .notContains .bool .str .str ("(1 - " ++ packaged "contains_str_str" ++ ")"),
   binary .notContains .bool .str .clob ("(1 - " ++ packaged "contains_str_clob" ++ ")"),
   binary .item .str .str .int (packaged "item_str"),
   -- bits
   binary .bitAnd .int .int .int s!"bitand({a}, {b})",
   binary .bitOr .int .int .int s!"({a} + {b} - bitand({a}, {b}))",
   binary .bitXor .int .int .int s!"({a} + {b} - 2 * bitand({a}, {b}))",
   binary .shiftLeft .int .int .int s!"trunc({a} * power(2, {b}))",
   binary .shiftRight .int .int .int s!"floor({a} / power(2, {b}))",
   -- functions
   func "now" .dateTime [] "sysdate",
   func "today" .date [] "trunc(sysdate)",
   func "int" .int [.number] s!"trunc({a})",
   func "int" .int [.str] s!"to_number({a})",
   func "float" .number [.str] s!"to_number({a})",
   func "str" .str [] "null",
   func "str" .str [.int] s!"to_char({a})",
   func "str" .str [.number] s!"to_char({a})",
   func "len" .int [.clob] s!"coalesce(dbms_lob.getlength({a}), 0)",
   func "date" .date [.dateTime] s!"trunc({a})",
   func "date" .date [.int, .int, .int] s!"to_date({a} || '-' || {b} || '-' || {c}, 'YYYY-MM-DD')",
   func "datetime" .dateTime [.date] a,
   func "hours" .dateTimeDelta [.int] s!"({a} / 24)",
   func "minutes" .dateTimeDelta [.int] s!"({a} / 1440)",
   func "seconds" .dateTimeDelta [.number] s!"({a} / 86400)",
   -- methods
   meth .str "startswith" .bool [.str] (packaged "startswith_str_str"),
   meth .str "endswith" .bool [.str] (packaged "endswith_str_str"),
   meth .str "find" .int [.str] s!"(instr({a}, {b}) - 1)",
   meth .dateTime "weekday" .int [] s!"(trunc({a}) - trunc({a}, 'IW'))",
   meth .dateTime "yearday" .int [] s!"to_number(to_char({a}, 'DDD'))"] ++
  -- attributes
  (["year", "month", "day"].map fun part =>
    attr .dateTime part .int s!"extract({part} from {a})") ++
  ([("hour", "HH24"), ("minute", "MI"), ("second", "SS")].map fun (part, format) =>
    attr .dateTime part .int s!"to_number(to_char({a}, '{format}'))")

end TypedSql.Builtin
