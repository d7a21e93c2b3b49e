import Occupancy.Text.Decimal

/-!
# Spans of time

A `Span` is a signed length of time in whole nanoseconds, at most `2^63 - 1` milliseconds either
way. A `Wait` is an unsigned one: timeouts, delays and intervals, below `2^64` seconds. Arithmetic
that would leave the range answers `none`, so every caller states what happens there.
-/

namespace Occupancy

/-! ## Signed spans -/

/-- A signed length of time. -/
structure Span where
  /-- The length in nanoseconds. -/
  nanos : Int
  /-- The length is within the range of spans. -/
  inRange : -9223372036854775807000000 ≤ nanos ∧ nanos ≤ 9223372036854775807000000 := by decide
deriving DecidableEq

namespace Span

def zero : Span :=
  { nanos := 0 }

/-- The longest span. -/
def longest : Span :=
  { nanos := 9223372036854775807000000 }

/-- The span of that many nanoseconds, if there is one. -/
def ofNanos? (n : Int) : Option Span :=
  if h : -9223372036854775807000000 ≤ n ∧ n ≤ 9223372036854775807000000 then some ⟨n, h⟩ else none

/-- The span of that many milliseconds, if there is one. -/
def ofMillis? (n : Int) : Option Span :=
  ofNanos? (n * 1000000)

def ofSeconds? (n : Int) : Option Span :=
  ofNanos? (n * 1000000000)

def add? (a b : Span) : Option Span :=
  ofNanos? (a.nanos + b.nanos)

def sub? (a b : Span) : Option Span :=
  ofNanos? (a.nanos - b.nanos)

/-- The sum, or the longest span where there is none. -/
def saturatingAdd (a b : Span) : Span :=
  (a.add? b).getD longest

/-- The longer of a span and the empty one. -/
def clampNonneg (a : Span) : Span :=
  if a.nanos < 0 then zero else a

/-- Whole seconds, the fraction cut off. -/
def seconds (a : Span) : Int :=
  a.nanos.tdiv 1000000000

/-- Whole milliseconds, the fraction cut off. -/
def millis (a : Span) : Int :=
  a.nanos.tdiv 1000000

end Span

/-! ## Waits -/

/-- An unsigned length of time. -/
structure Wait where
  /-- The length in nanoseconds. -/
  nanos : Nat
  /-- The length is below `2^64` seconds. -/
  inRange : nanos < 18446744073709551616000000000 := by decide
deriving DecidableEq

namespace Wait

/-- The wait of that many nanoseconds, if there is one. -/
def ofNanos? (n : Nat) : Option Wait :=
  if h : n < 18446744073709551616000000000 then some ⟨n, h⟩ else none

/-- The wait of a word of milliseconds. -/
def ofMillis (ms : UInt64) : Wait :=
  ⟨ms.toNat * 1000000, by have := ms.toNat_lt; omega⟩

def ofSeconds (s : UInt64) : Wait :=
  ⟨s.toNat * 1000000000, by have := s.toNat_lt; omega⟩

def scale? (w : Wait) (factor : Nat) : Option Wait :=
  ofNanos? (w.nanos * factor)

def shorter (a b : Wait) : Wait :=
  if a.nanos ≤ b.nanos then a else b

/-! ## The text of a wait -/

/-- A whole part and the fraction `rest / 10 ^ places`, written with no trailing zeros and with a
point only before a remaining digit. -/
def fractional (whole rest places : Nat) : String :=
  let fraction := ((Decimal.padded places rest).reverse.dropWhile (· == '0')).reverse
  Decimal.text whole ++
    (if rest = 0 then "" else "." ++ String.ofList fraction)

/-- A wait in the largest of the units s, ms, µs and ns that gives a whole part of one or more. -/
def text (w : Wait) : String :=
  if w.nanos ≥ 1000000000 then fractional (w.nanos / 1000000000) (w.nanos % 1000000000) 9 ++ "s"
  else if w.nanos ≥ 1000000 then fractional (w.nanos / 1000000) (w.nanos % 1000000) 6 ++ "ms"
  else if w.nanos ≥ 1000 then fractional (w.nanos / 1000) (w.nanos % 1000) 3 ++ "µs"
  else Decimal.text w.nanos ++ "ns"

end Wait

end Occupancy
