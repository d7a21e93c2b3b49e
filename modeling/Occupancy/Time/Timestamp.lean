import Occupancy.Time.Instant
import Occupancy.Text.Blank

/-!
# Timestamps

The written form of an instant, `2026-03-01T18:00:00.25Z`. Written timestamps are in universal time;
the fraction has none, three, six or nine digits, the fewest of these that lose nothing, and years
that do not have four digits carry a sign. Read timestamps may have any offset, blanks before a
number or a mark, a space in place of `T` and a longer fraction, whose tail is dropped.

A read timestamp may also name the inserted second `:60`. It is kept apart from the second before
it, so that it is written as it was read.
-/

namespace Occupancy

/-- An instant as it is written: `leap` marks the inserted second that follows it. -/
structure Timestamp where
  instant : Instant
  leap : Bool := false
deriving DecidableEq

namespace Timestamp

/-- Every instant is written as a timestamp outside inserted seconds. -/
instance : Coe Instant Timestamp :=
  ⟨fun i => ⟨i, false⟩⟩

/-! ## Writing -/

/-- A year: four digits, or a sign and at least four digits. -/
def yearChars (year : Int) : List Char :=
  if 0 ≤ year ∧ year ≤ 9999 then Decimal.padded 4 year.toNat
  else (if year < 0 then '-' else '+') :: Decimal.padded 4 year.natAbs

/-- The fraction of a second in nanoseconds, with its point. -/
def fractionChars (nanos : Nat) : List Char :=
  if nanos = 0 then []
  else if nanos % 1000000 = 0 then '.' :: Decimal.padded 3 (nanos / 1000000)
  else if nanos % 1000 = 0 then '.' :: Decimal.padded 6 (nanos / 1000)
  else '.' :: Decimal.padded 9 nanos

/-- The written form of a timestamp. -/
def chars (t : Timestamp) : List Char :=
  let day := t.instant.nanos / (86400 * 1000000000)
  let nanos := (t.instant.nanos % (86400 * 1000000000)).toNat
  let second := nanos / 1000000000
  let date := Date.ofDay day
  yearChars date.year ++ '-' :: Decimal.padded 2 date.month ++ '-' :: Decimal.padded 2 date.day ++
    'T' :: Decimal.padded 2 (second / 3600) ++ ':' :: Decimal.padded 2 (second / 60 % 60) ++
    ':' :: Decimal.padded 2 (second % 60 + if t.leap then 1 else 0) ++
    fractionChars (nanos % 1000000000) ++ ['Z']

/-- The written form of a timestamp, as text. -/
def text (t : Timestamp) : String :=
  String.ofList t.chars

/-! ## Reading -/

def readDigits (most : Nat) (cs : List Char) : Option (Nat × List Char) :=
  let run := (cs.take most).takeWhile Decimal.isDigit
  if run = [] then none else some (Decimal.value run, cs.drop run.length)

/-- Reads a year: four digits at most, or a sign and any number of digits. -/
def readYear (cs : List Char) : Option (Int × List Char) :=
  match skipBlanks cs with
  | '-' :: rest => (readDigits rest.length rest).map fun (n, more) => (-(n : Int), more)
  | '+' :: rest => (readDigits rest.length rest).map fun (n, more) => ((n : Int), more)
  | rest => (readDigits 4 rest).map fun (n, more) => ((n : Int), more)

/-- Reads a field of one or two digits, with blanks before it. -/
def readField (cs : List Char) : Option (Nat × List Char) :=
  readDigits 2 (skipBlanks cs)

def readMark (mark : Char) (cs : List Char) : Option (List Char) :=
  match skipBlanks cs with
  | c :: rest => if c = mark then some rest else none
  | [] => none

/-- Reads the fraction of a second, if there is one, in nanoseconds. Digits after the ninth are
dropped. -/
def readFraction (cs : List Char) : Option (Nat × List Char) :=
  match cs with
  | '.' :: rest => do
    let (n, _) ← readDigits 9 rest
    let places := ((rest.take 9).takeWhile Decimal.isDigit).length
    some (n * Nat.pow 10 (9 - places), rest.dropWhile Decimal.isDigit)
  | _ => some (0, cs)

/-- Two digits that stand at the head of the text. -/
def readPair : List Char → Option (Nat × List Char)
  | a :: b :: rest =>
    if Decimal.isDigit a && Decimal.isDigit b then some (Decimal.value [a, b], rest) else none
  | _ => none

/-- Reads an offset from universal time in seconds: `UTC`, `Z`, or a sign, hours and minutes. -/
def readOffset (cs : List Char) : Option (Int × List Char) :=
  let rest := skipBlanks cs
  let signed (sign : Int) (cs : List Char) : Option (Int × List Char) := do
    let (hours, more) ← readPair cs
    let (minutes, more) ← readPair (more.dropWhile fun c => c == ':' || isBlank c)
    if minutes < 60 then some (sign * (hours * 3600 + minutes * 60), more) else none
  match rest with
  | 'Z' :: more => some (0, more)
  | 'z' :: more => some (0, more)
  | '+' :: more => signed 1 more
  | '-' :: more => signed (-1) more
  | '\u2212' :: more => signed (-1) more
  | u :: t :: c :: more =>
    if u.toLower = 'u' ∧ t.toLower = 't' ∧ c.toLower = 'c' then some (0, more) else none
  | _ => none

/-- The timestamp of a date, a time of day and an offset. Both the wall clock time and the universal time
have to be in range. -/
def ofFields? (date : Date) (hour minute second nanos : Nat) (offset : Int) : Option Timestamp :=
  let plain := if second = 60 then 59 else second
  let wall := date.toDay * 86400 + hour * 3600 + minute * 60 + plain
  if date.Valid ∧ hour < 24 ∧ minute < 60 ∧ second ≤ 60 ∧ -86400 < offset ∧ offset < 86400 then do
    let _ ← Instant.ofNanos? (wall * 1000000000)
    let instant ← Instant.ofNanos? ((wall - offset) * 1000000000 + nanos)
    some ⟨instant, second == 60⟩
  else none

/-- Reads a timestamp that fills the text. -/
def read? (s : String) : Option Timestamp := do
  let (year, cs) ← readYear s.toList
  let cs ← readMark '-' cs
  let (month, cs) ← readField cs
  let cs ← readMark '-' cs
  let (day, cs) ← readField cs
  let cs ← match cs with
    | c :: rest => if c = 'T' ∨ c = 't' ∨ c = ' ' then some rest else none
    | [] => none
  let (hour, cs) ← readField cs
  let cs ← readMark ':' cs
  let (minute, cs) ← readField cs
  let cs ← readMark ':' cs
  let (second, cs) ← readField cs
  let (nanos, cs) ← readFraction cs
  let (offset, cs) ← readOffset cs
  if skipBlanks cs = [] then ofFields? ⟨year, month, day⟩ hour minute second nanos offset else none

end Timestamp

end Occupancy
