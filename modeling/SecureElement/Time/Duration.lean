import SecureElement.Text.Decimal

/-!
Spans of time, to the nanosecond, and their text in messages: the largest unit that gives a whole
part, with as many decimals as are needed.
-/

namespace SecureElement

/-- A span of time. -/
structure Duration where
  nanos : Nat
  deriving DecidableEq, Repr, Inhabited

namespace Duration

/-- A number of milliseconds. -/
def ofMillis (n : Nat) : Duration := ⟨n * 1000000⟩

/-- A number of seconds. -/
def ofSecs (n : Nat) : Duration := ⟨n * 1000000000⟩

/-- The milliseconds that have passed in full. -/
def toMillis (d : Duration) : Nat := d.nanos / 1000000

/-- A whole part and `places` decimals, with no zeros at the end. -/
def decimal (whole fraction places : Nat) : String :=
  if fraction = 0 then whole.repr
  else
    let digits := Decimal.fixed places fraction
    whole.repr ++ "." ++ String.ofList (digits.reverse.dropWhile (· == '0')).reverse

/-- The text of a span in messages, such as `7s`, `1.5s`, `20ms` or `0ns`. -/
def text (d : Duration) : String :=
  let n := d.nanos
  if 1000000000 ≤ n then decimal (n / 1000000000) (n % 1000000000) 9 ++ "s"
  else if 1000000 ≤ n then decimal (n / 1000000) (n % 1000000) 6 ++ "ms"
  else if 1000 ≤ n then decimal (n / 1000) (n % 1000) 3 ++ "µs"
  else n.repr ++ "ns"

end Duration

end SecureElement
