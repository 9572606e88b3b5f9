import Mathlib.Data.String.Basic

/-!
# Instants and their ISO texts

An instant is a number of microseconds since 1970 in UTC, positive or not. The text
is the one of `datetime.isoformat` for a time in UTC, without the offset.
-/

namespace Corvus

abbrev Instant := Int

namespace Calendar

/-- The year, the month and the day of a number of days since 1970. -/
def civil (days : Int) : Int × Int × Int :=
  let z := days + 719468
  let era := z / 146097
  let doe := z - era * 146097
  let yoe := (doe - doe / 1460 + doe / 36524 - doe / 146096) / 365
  let doy := doe - (365 * yoe + yoe / 4 - yoe / 100)
  let mp := (5 * doy + 2) / 153
  let day := doy - (153 * mp + 2) / 5 + 1
  let month := if mp < 10 then mp + 3 else mp - 9
  (yoe + era * 400 + if month ≤ 2 then 1 else 0, month, day)

/-- The last `width` decimal digits of a number. -/
def digits : Nat → Nat → List Char
  | 0, _ => []
  | width + 1, n => digits width (n / 10) ++ [Char.ofNat (48 + n % 10)]

/-- `isoformat`, whose fraction is left out when it is zero. -/
def isoformat (t : Instant) : String :=
  let micros := t % 86400000000
  let (year, month, day) := civil (t / 86400000000)
  let seconds := micros / 1000000
  let fraction := micros % 1000000
  String.ofList (digits 4 year.toNat ++ '-' :: digits 2 month.toNat ++ '-' :: digits 2 day.toNat ++
    'T' :: digits 2 (seconds / 3600).toNat ++ ':' :: digits 2 (seconds / 60 % 60).toNat ++
    ':' :: digits 2 (seconds % 60).toNat ++
    if fraction = 0 then [] else '.' :: digits 6 fraction.toNat)

example : isoformat 1709210096000007 = "2024-02-29T12:34:56.000007" := by decide +kernel

end Calendar

end Corvus
