/-!
# Numerals in a base

Positional numerals with lower case digits. `write` gives the shortest numeral of a number in a
base up to sixteen, `read?` gives the number of a numeral, in either case and with any number of
leading zeros. `read?_write` says that reading undoes writing.
-/

namespace MeshAccess.Text.Positional

/-- The lower case digit of value `d`, for `d` below sixteen. -/
def digit (d : Nat) : Char :=
  if d < 10 then Char.ofNat (48 + d) else Char.ofNat (87 + d)

/-- The value of `c` as a digit of base sixteen. -/
def hexValue? (c : Char) : Option Nat :=
  if '0' ≤ c ∧ c ≤ '9' then some (c.toNat - 48)
  else if 'a' ≤ c ∧ c ≤ 'f' then some (c.toNat - 87)
  else if 'A' ≤ c ∧ c ≤ 'F' then some (c.toNat - 55)
  else none

/-- The value of `c` as a digit of base `base`, which is at most sixteen. -/
def digitValue? (base : Nat) (c : Char) : Option Nat :=
  (hexValue? c).filter (· < base)

/-- The numeral of `n` in base `base` without leading zeros; zero is one digit. -/
def write (base n : Nat) : List Char :=
  if n < base ∨ base < 2 then [digit n]
  else write base (n / base) ++ [digit (n % base)]
termination_by n
decreasing_by
  rename_i h
  simp only [not_or, Nat.not_lt] at h
  exact Nat.div_lt_self (by omega) (by omega)

/-- The number that the digits `cs` denote when they follow a numeral of value `acc`. -/
def readFrom? (base acc : Nat) : List Char → Option Nat
  | [] => some acc
  | c :: cs =>
    match digitValue? base c with
    | some d => readFrom? base (acc * base + d) cs
    | none => none

/-- The number that a nonempty run of digits denotes. -/
def read? (base : Nat) : List Char → Option Nat
  | [] => none
  | c :: cs => readFrom? base 0 (c :: cs)

/-- The number that a nonempty run of digits denotes, if it is below `bound`. -/
def readBelow? (base bound : Nat) (cs : List Char) : Option Nat :=
  (read? base cs).filter (· < bound)

theorem digitValue?_digit {base d : Nat} (hb : base ≤ 16) (hd : d < base) :
    digitValue? base (digit d) = some d := by
  have h16 : ∀ d : Fin 16, hexValue? (digit d.val) = some d.val := by decide
  have := h16 ⟨d, by omega⟩
  simp only at this
  simp [digitValue?, this, hd]

theorem readFrom?_append (base acc : Nat) (cs ds : List Char) :
    readFrom? base acc (cs ++ ds) = (readFrom? base acc cs).bind (readFrom? base · ds) := by
  induction cs generalizing acc with
  | nil => rfl
  | cons c cs ih =>
    simp only [List.cons_append, readFrom?]
    cases digitValue? base c with
    | none => rfl
    | some d => exact ih _

theorem write_ne_nil (base n : Nat) : write base n ≠ [] := by
  rw [write]; split <;> simp

theorem readFrom?_write {base : Nat} (h2 : 2 ≤ base) (hb : base ≤ 16) (n : Nat) :
    readFrom? base 0 (write base n) = some n := by
  induction n using Nat.strongRecOn with
  | _ n ih =>
    rw [write]
    split
    · rename_i h
      have hn : n < base := by omega
      simp [readFrom?, digitValue?_digit hb hn]
    · rename_i h
      simp only [not_or, Nat.not_lt] at h
      have hlt : n / base < n := Nat.div_lt_self (by omega) (by omega)
      rw [readFrom?_append, ih _ hlt]
      simp only [Option.bind_some, readFrom?, digitValue?_digit hb (Nat.mod_lt n (by omega))]
      rw [Nat.mul_comm, Nat.div_add_mod]

/-- Reading a written numeral gives the number back. -/
theorem read?_write {base : Nat} (h2 : 2 ≤ base) (hb : base ≤ 16) (n : Nat) :
    read? base (write base n) = some n := by
  have h := readFrom?_write h2 hb n
  cases hw : write base n with
  | nil => exact absurd hw (write_ne_nil base n)
  | cons c cs => rw [hw] at h; exact h

end MeshAccess.Text.Positional
