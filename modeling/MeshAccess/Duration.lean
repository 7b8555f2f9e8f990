import MeshAccess.Text.Blank
import MeshAccess.Text.Positional

/-!
# Durations in words

A duration is `0` or a row of spans such as `1h 30m` or `1.5days`: a number, optionally with a
fraction, and a unit. White space may stand before a span and anywhere inside its number. All
numbers are of 64 bits, and a fraction has to come to a whole number of nanoseconds, or of seconds
where the unit is an hour or longer. `Duration.read` stops at the first fault, and tells a sum that
runs over at a carry from all other faults.
-/

namespace MeshAccess

open MeshAccess.Text

/-- A length of time in seconds and nanoseconds. -/
structure Duration where
  seconds : Nat
  nanos : Nat
  deriving DecidableEq, Repr

namespace Duration

/-- The unit of a span. -/
inductive Scale where
  | nanosecond
  | microsecond
  | millisecond
  | second
  | minute
  | hour
  | day
  | week
  | month
  | year
  deriving DecidableEq, Repr

/-- The unit with the given name. -/
def Scale.ofName? (name : String) : Option Scale :=
  if name ∈ ["nanos", "nsec", "ns"] then some .nanosecond
  else if name ∈ ["usec", "us", "µs"] then some .microsecond
  else if name ∈ ["millis", "msec", "ms"] then some .millisecond
  else if name ∈ ["seconds", "second", "secs", "sec", "s"] then some .second
  else if name ∈ ["minutes", "minute", "min", "mins", "m"] then some .minute
  else if name ∈ ["hours", "hour", "hr", "hrs", "h"] then some .hour
  else if name ∈ ["days", "day", "d"] then some .day
  else if name ∈ ["weeks", "week", "wk", "wks", "w"] then some .week
  else if name ∈ ["months", "month", "M"] then some .month
  else if name ∈ ["years", "year", "yr", "yrs", "y"] then some .year
  else none

/-- The nanoseconds of a unit shorter than a second. -/
def Scale.nanos? : Scale → Option Nat
  | .nanosecond => some 1
  | .microsecond => some 1000
  | .millisecond => some 1000000
  | _ => none

/-- The seconds of a unit; none of them for one shorter than a second. -/
def Scale.seconds : Scale → Nat
  | .nanosecond | .microsecond | .millisecond => 0
  | .second => 1
  | .minute => 60
  | .hour => 3600
  | .day => 86400
  | .week => 604800
  | .month => 2630016
  | .year => 31557600

/-- Why a text spells no duration. -/
inductive Fault where
  /-- It is no row of spans, or a number in it or their sum is too large. -/
  | malformed
  /-- The nanoseconds of a sum come to one second exactly, and there is no second to carry it to. -/
  | overrun
  deriving DecidableEq, Repr

/-- The value `n` if it fits into 64 bits. -/
def fit (n : Nat) : Except Fault Nat := if n < Nat.pow 2 64 then .ok n else .error .malformed

/-- The sum of a duration with seconds and nanoseconds, if it fits. -/
def add (d : Duration) (seconds nanos : Nat) : Except Fault Duration :=
  match fit (d.nanos + nanos) with
  | .error f => .error f
  | .ok nanos =>
    if nanos = 1000000000 ∧ d.seconds + seconds + 1 = Nat.pow 2 64 then .error .overrun
    else
      (fit (d.seconds + (seconds + nanos / 1000000000))).map fun seconds =>
        ⟨seconds, nanos % 1000000000⟩

/-- A decimal fraction by its digits' value and the power of ten under it. -/
structure Fraction where
  numerator : Nat
  denominator : Nat

/-- The whole part of a span added to `d`. -/
def addWhole (d : Duration) (n : Nat) (scale : Scale) : Except Fault Duration :=
  match scale.nanos? with
  | some k => (fit (n * k)).bind (d.add 0)
  | none => (fit (n * scale.seconds)).bind (d.add · 0)

/-- The amount of a fraction of a unit of `size`, if it fits and comes to a whole number. -/
def Fraction.of (f : Fraction) (size : Nat) : Except Fault Nat :=
  match fit (f.numerator * size) with
  | .error f => .error f
  | .ok n => if n % f.denominator = 0 then .ok (n / f.denominator) else .error .malformed

/-- The fraction of a span added to `d`. -/
def addFraction (d : Duration) (f : Fraction) (scale : Scale) : Except Fault Duration :=
  match scale with
  | .nanosecond => .error .malformed
  | .microsecond => (f.of 1000).bind (d.add 0)
  | .millisecond => (f.of 1000000).bind (d.add 0)
  | .second => (f.of 1000000000).bind (d.add 0)
  | .minute => (f.of 60000000000).bind (d.add 0)
  | .hour | .day | .week | .month | .year => (f.of scale.seconds).bind (d.add · 0)

/-! ## Reading -/

/-- A letter of a unit. -/
def isUnitLetter (c : Char) : Bool :=
  (decide ('a' ≤ c) && decide (c ≤ 'z')) || (decide ('A' ≤ c) && decide (c ≤ 'Z')) || c == 'µ'

/-- The value of digits in 64 bits. -/
def readNumber? (ds : List Char) : Option Nat := Positional.readBelow? 10 (Nat.pow 2 64) ds

/-- Whether `c` may stand inside a number. -/
def isNumberChar (c : Char) : Bool := c.isDigit || isBlank c

/-- The fraction behind a point, given with its white space. -/
def readFraction? (cs : List Char) : Option Fraction :=
  let ds := cs.filter Char.isDigit
  match readNumber? ds, fit (Nat.pow 10 ds.length) with
  | some n, .ok d => some ⟨n, d⟩
  | _, _ => none

/-- The duration `d` with one more span. -/
def addSpan (d : Duration) (whole : Nat) (fraction : Option Fraction) (unit : List Char) :
    Except Fault Duration :=
  match Scale.ofName? (String.ofList unit) with
  | none => .error .malformed
  | some scale =>
    match addWhole d whole scale, fraction with
    | .error f, _ => .error f
    | .ok d, none => .ok d
    | .ok d, some f => addFraction d f scale

/-- What follows a unit: nothing, white space, or the first digit of the next span. -/
def isUnitEnd : List Char → Bool
  | [] => true
  | c :: _ => c.isDigit || isBlank c

/-- The duration `d` with the span whose number has been read, and what follows the unit. -/
def finishSpan (d : Duration) (whole : Nat) (fraction : Option Fraction) (cs : List Char) :
    Except Fault (Duration × List Char) :=
  if isUnitEnd (cs.dropWhile isUnitLetter) then
    (addSpan d whole fraction (cs.takeWhile isUnitLetter)).map (·, cs.dropWhile isUnitLetter)
  else .error .malformed

/-- The duration `d` with the span at the start of a text, and what follows it. -/
def readSpan (d : Duration) (cs : List Char) : Except Fault (Duration × List Char) :=
  match readNumber? ((cs.takeWhile isNumberChar).filter Char.isDigit),
      cs.dropWhile isNumberChar with
  | none, _ => .error .malformed
  | some whole, '.' :: cs =>
    match readFraction? (cs.takeWhile isNumberChar) with
    | none => .error .malformed
    | some f => finishSpan d whole (some f) (cs.dropWhile isNumberChar)
  | some whole, cs => finishSpan d whole none cs

theorem length_dropWhile_lt {p : Char → Bool} {c : Char} {cs : List Char} (h : p c = true) :
    ((c :: cs).dropWhile p).length < (c :: cs).length := by
  have := (List.dropWhile_sublist p (l := cs)).length_le
  simp only [List.dropWhile_cons, h, if_true, List.length_cons]
  omega

theorem length_of_finishSpan {d e : Duration} {n : Nat} {f : Option Fraction}
    {cs rest : List Char} (h : finishSpan d n f cs = .ok (e, rest)) :
    rest.length ≤ cs.length := by
  have hle := (List.dropWhile_sublist isUnitLetter (l := cs)).length_le
  unfold finishSpan at h
  split at h
  · cases ha : addSpan d n f (cs.takeWhile isUnitLetter) with
    | error f => simp [ha, Except.map] at h
    | ok d =>
      simp only [ha, Except.map, Except.ok.injEq, Prod.mk.injEq] at h
      rw [← h.2]
      exact hle
  · simp at h

/-- Reading a span leaves a shorter text. -/
theorem length_of_readSpan {d e : Duration} {c : Char} {cs rest : List Char}
    (hc : c.isDigit = true) (h : readSpan d (c :: cs) = .ok (e, rest)) :
    rest.length < (c :: cs).length := by
  have hlt := @length_dropWhile_lt isNumberChar c cs (by simp [isNumberChar, hc])
  unfold readSpan at h
  split at h
  · simp at h
  · rename_i ds _ hd
    split at h
    · simp at h
    · have h1 := length_of_finishSpan h
      have h2 := (List.dropWhile_sublist isNumberChar (l := ds)).length_le
      rw [hd, List.length_cons] at hlt
      omega
  · have := length_of_finishSpan h
    omega

/-- The duration `d` with the spans of a text. -/
def readSpans (d : Duration) (cs : List Char) : Except Fault Duration :=
  match _hb : cs.dropWhile isBlank with
  | [] => .ok d
  | c :: ds =>
    if _hc : c.isDigit then
      match _hs : readSpan d (c :: ds) with
      | .error f => .error f
      | .ok (d, rest) => readSpans d rest
    else .error .malformed
termination_by cs.length
decreasing_by
  have hle := (List.dropWhile_sublist isBlank (l := cs)).length_le
  have hlt := length_of_readSpan _hc _hs
  rw [_hb] at hle
  omega

/-- The duration that a text spells. -/
def read (s : String) : Except Fault Duration :=
  if s = "0" then .ok ⟨0, 0⟩
  else if s.toList.all isBlank then .error .malformed
  else readSpans ⟨0, 0⟩ s.toList

end Duration

end MeshAccess
