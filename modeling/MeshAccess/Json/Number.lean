import MeshAccess.Json.Fault
import MeshAccess.Text.DoublePrecision

/-!
# Numbers as they are written

A `Numeral` keeps the parts of a written number. Two questions are asked of it: which natural it
denotes, if it is written as one, and whether it has a finite value in double precision, since a
number without one is not accepted where its value is wanted.
-/

namespace MeshAccess.Json

open MeshAccess.Text

/-- A written number: its sign and the digits of its parts. -/
structure Numeral where
  negative : Bool
  whole : List Char
  fraction : List Char
  /-- The sign and the digits of the exponent. -/
  exponent : Option (Bool × List Char)

namespace Numeral

/-! ## Reading -/

/-- A run of digits, at least one, and what follows it. -/
def readDigits (cs : List Char) : Except Fault (List Char × List Char) :=
  match cs.takeWhile Char.isDigit, cs.dropWhile Char.isDigit with
  | [], [] => .error .cutShort
  | [], _ :: _ => .error .malformed
  | ds, rest => .ok (ds, rest)

/-- The digits before the point: a zero stands alone. -/
def readWhole (cs : List Char) : Except Fault (List Char × List Char) :=
  match cs with
  | '0' :: c :: rest => if c.isDigit then .error .malformed else .ok (['0'], c :: rest)
  | cs => readDigits cs

/-- The digits behind the point, none if there is no point. -/
def readFraction (cs : List Char) : Except Fault (List Char × List Char) :=
  match cs with
  | '.' :: rest => readDigits rest
  | cs => .ok ([], cs)

/-- The digits of an exponent behind its sign. -/
def readSigned (cs : List Char) : Except Fault ((Bool × List Char) × List Char) :=
  match cs with
  | '-' :: rest => (readDigits rest).map fun (ds, rest) => ((true, ds), rest)
  | '+' :: rest => (readDigits rest).map fun (ds, rest) => ((false, ds), rest)
  | cs => (readDigits cs).map fun (ds, rest) => ((false, ds), rest)

/-- The exponent, if there is one. -/
def readExponent (cs : List Char) : Except Fault (Option (Bool × List Char) × List Char) :=
  match cs with
  | 'e' :: rest => (readSigned rest).map fun (e, rest) => (some e, rest)
  | 'E' :: rest => (readSigned rest).map fun (e, rest) => (some e, rest)
  | cs => .ok (none, cs)

/-- The parts behind the sign. -/
def readUnsigned (negative : Bool) (cs : List Char) : Except Fault (Numeral × List Char) :=
  match readWhole cs with
  | .error f => .error f
  | .ok (whole, cs) =>
    match readFraction cs with
    | .error f => .error f
    | .ok (fraction, cs) =>
      match readExponent cs with
      | .error f => .error f
      | .ok (exponent, cs) => .ok (⟨negative, whole, fraction, exponent⟩, cs)

/-- The number at the start of a text, and what follows it. -/
def read (cs : List Char) : Except Fault (Numeral × List Char) :=
  match cs with
  | '-' :: rest => readUnsigned true rest
  | cs => readUnsigned false cs

/-! ## Values -/

/-- The natural that the numeral is written as, if it has no sign, fraction or exponent. -/
def natural? (n : Numeral) : Option Nat :=
  match n with
  | ⟨false, whole, [], none⟩ => Positional.read? 10 whole
  | _ => none

/-- The value of the leading digits that fit into 64 bits behind `acc`, and how many are left. -/
def leading (acc : Nat) : List Char → Nat × Nat
  | [] => (acc, 0)
  | c :: cs =>
    let next := acc * 10 + (c.toNat - 48)
    if next < Nat.pow 2 64 then leading next cs else (acc, cs.length + 1)

/-- Whether the leading digits, scaled by the exponent, stay finite in double precision. -/
def isFinite (n : Numeral) : Bool :=
  let (high, dropped) := leading 0 n.whole
  let (significand, left) := leading high n.fraction
  let written : Int :=
    match n.exponent with
    | none => 0
    | some (negative, ds) =>
      let e : Int := (Positional.read? 10 ds).getD 0
      if negative then -e else e
  let scale : Int := dropped - (n.fraction.length - left : Nat) + written
  significand == 0 || decide (scale < 0) ||
    (decide (scale ≤ 308) &&
      DoublePrecision.isFiniteProduct significand (Nat.pow 10 scale.toNat))

/-! ## What is left is shorter -/

theorem length_dropWhile_le (p : Char → Bool) (cs : List Char) :
    (cs.dropWhile p).length ≤ cs.length := by
  induction cs with
  | nil => simp
  | cons c cs ih =>
    simp only [List.dropWhile]
    split
    · simp only [List.length_cons]; omega
    · simp

theorem length_of_readDigits {cs ds rest : List Char} (h : readDigits cs = .ok (ds, rest)) :
    rest.length < cs.length := by
  unfold readDigits at h
  cases cs with
  | nil => simp at h
  | cons c cs =>
    have := length_dropWhile_le Char.isDigit cs
    by_cases hc : c.isDigit = true
    · simp [hc] at h
      simp [← h.2]; omega
    · simp [hc] at h

theorem length_of_readWhole {cs ds rest : List Char} (h : readWhole cs = .ok (ds, rest)) :
    rest.length < cs.length := by
  unfold readWhole at h
  split at h
  · split at h
    · simp at h
    · simp only [Except.ok.injEq, Prod.mk.injEq] at h
      simp [← h.2]
  · exact length_of_readDigits h

theorem length_of_readFraction {cs ds rest : List Char} (h : readFraction cs = .ok (ds, rest)) :
    rest.length ≤ cs.length := by
  unfold readFraction at h
  split at h
  · have := length_of_readDigits h
    simp only [List.length_cons]; omega
  · simp only [Except.ok.injEq, Prod.mk.injEq] at h
    simp [h.2]

theorem length_of_readSigned {cs rest : List Char} {e : Bool × List Char}
    (h : readSigned cs = .ok (e, rest)) : rest.length ≤ cs.length := by
  have step : ∀ {cs : List Char} {b : Bool},
      (readDigits cs).map (fun (ds, rest) => ((b, ds), rest)) = .ok (e, rest) →
      rest.length < cs.length := by
    intro cs b h
    cases hd : readDigits cs with
    | error f => simp [hd, Except.map] at h
    | ok p =>
      simp only [hd, Except.map, Except.ok.injEq, Prod.mk.injEq] at h
      rw [← h.2]
      exact length_of_readDigits hd
  unfold readSigned at h
  split at h
  · have := step h; simp only [List.length_cons]; omega
  · have := step h; simp only [List.length_cons]; omega
  · have := step h; omega

theorem length_of_readExponent {cs rest : List Char} {e : Option (Bool × List Char)}
    (h : readExponent cs = .ok (e, rest)) : rest.length ≤ cs.length := by
  have step : ∀ {cs : List Char},
      (readSigned cs).map (fun (e, rest) => (some e, rest)) = .ok (e, rest) →
      rest.length ≤ cs.length := by
    intro cs h
    cases hs : readSigned cs with
    | error f => simp [hs, Except.map] at h
    | ok p =>
      simp only [hs, Except.map, Except.ok.injEq, Prod.mk.injEq] at h
      rw [← h.2]
      exact length_of_readSigned hs
  unfold readExponent at h
  split at h
  · have := step h; simp only [List.length_cons]; omega
  · have := step h; simp only [List.length_cons]; omega
  · simp only [Except.ok.injEq, Prod.mk.injEq] at h
    simp [h.2]

theorem length_of_readUnsigned {b : Bool} {cs rest : List Char} {n : Numeral}
    (h : readUnsigned b cs = .ok (n, rest)) : rest.length < cs.length := by
  unfold readUnsigned at h
  split at h
  · simp at h
  · rename_i hw
    split at h
    · simp at h
    · rename_i hf
      split at h
      · simp at h
      · rename_i he
        simp only [Except.ok.injEq, Prod.mk.injEq] at h
        have hw := length_of_readWhole hw
        have hf := length_of_readFraction hf
        have he := length_of_readExponent he
        rw [← h.2]; omega

theorem length_of_read {cs rest : List Char} {n : Numeral} (h : read cs = .ok (n, rest)) :
    rest.length < cs.length := by
  unfold read at h
  split at h
  · have := length_of_readUnsigned h
    simp only [List.length_cons]; omega
  · exact length_of_readUnsigned h

end Numeral

end MeshAccess.Json
