import Mathlib
import Tumult.Lib.Fixed

/-!
# Dates in reports and audits

The two copies of the algorithm that finds the date of a day number: the reports' on signed words and with floored divisions, and
the staleness audit's with a truncated division and words without sign. An operation that overflows has no value.
-/

namespace Tumult.Compliance

open Fixed

/-- `86_400 * 1_000_000_000` -/
def NANOS_PER_DAY : Int := 86400 * 1000000000

/-- `{:0width}`: zeros after the sign, up to the width. -/
def zeroPadded (width : Nat) (x : Int) : String :=
  let sign := if x < 0 then "-" else ""
  let digits := toString x.natAbs
  sign ++ String.ofList (List.replicate (width - sign.length - digits.length) '0') ++ digits

/-- The year, the month and the day that `fmtDate` prints. -/
def dateOf (ns : Int64) : Option (Int × Int × Int) := do
  let days := ns.toInt / NANOS_PER_DAY
  let z ← i64 (days + 719468)
  let era := z / 146097
  let doe := z % 146097
  let fourths ← i64 (doe - doe.tdiv 1460)
  let hundredths ← i64 (fourths + doe.tdiv 36524)
  let yoe := (← i64 (hundredths - doe.tdiv 146096)).tdiv 365
  let y ← i64 (yoe + (← i64 (era * 400)))
  let doy ← i64 (doe - (← i64 ((← i64 ((← i64 (365 * yoe)) + yoe.tdiv 4)) - yoe.tdiv 100)))
  let mp := (← i64 ((← i64 (5 * doy)) + 2)).tdiv 153
  let d ← i64 ((← i64 (doy - (← i64 ((← i64 (153 * mp)) + 2)).tdiv 5)) + 1)
  let m ← if mp < 10 then i64 (mp + 3) else i64 (mp - 9)
  let y ← if m ≤ 2 then i64 (y + 1) else pure y
  pure (y, m, d)

/-- `YYYY-MM-DD` -/
def fmtDate (ns : Int64) : Option String := do
  let (y, m, d) ← dateOf ns
  pure (zeroPadded 4 y ++ "-" ++ zeroPadded 2 m ++ "-" ++ zeroPadded 2 d)

/-- `YYYY-MM-DD HH:MM` -/
def fmtDatetime (ns : Int64) : Option String := do
  let secsOfDay := (ns.toInt % NANOS_PER_DAY).tdiv 1000000000
  let date ← fmtDate ns
  pure (date ++ " " ++ zeroPadded 2 (secsOfDay.tdiv 3600) ++ ":" ++ zeroPadded 2 ((secsOfDay.tmod 3600).tdiv 60) ++ " UTC")

/-- `if z >= 0 { z } else { z - 146_096 }` -/
def eraBase (z : Int) : Option Int := if 0 ≤ z then some z else i64 (z - 146096)

/-- The date of a day number. -/
def civilFromDays (days : Int64) : Option (Int × Int × Int) := do
  let z ← i64 (days.toInt + 719468)
  let era := (← eraBase z).tdiv 146097
  let doe := asUnsigned 64 (← i64 (z - (← i64 (era * 146097))))
  let fourths ← u64 (doe - doe / 1460)
  let hundredths ← u64 (fourths + doe / 36524)
  let yoe := (← u64 (hundredths - doe / 146096)) / 365
  let y ← i64 (castSigned yoe + (← i64 (era * 400)))
  let doy ← u64 (doe - (← u64 ((← u64 ((← u64 (365 * yoe)) + yoe / 4)) - yoe / 100)))
  let mp := (← u64 ((← u64 (5 * doy)) + 2)) / 153
  let d := asUnsigned 32 (← u64 ((← u64 (doy - (← u64 ((← u64 (153 * mp)) + 2)) / 5)) + 1))
  let m := asUnsigned 32 (← if mp < 10 then u64 (mp + 3) else u64 (mp - 9))
  let year ← if m ≤ 2 then i64 (y + 1) else pure y
  pure (year, m, d)

end Tumult.Compliance
