/-! Decimal numbers: as options take them, with a sign in front where the kind of number allows one, and as a
duration is printed, with the digits of a fraction behind a point. -/

namespace Blake2F

namespace Decimal

/-- The value of a digit. -/
def value? (digit : Char) : Option Nat :=
  -- Only the ten digits of plain text count, not those of other scripts.
  if 48 ≤ digit.toNat ∧ digit.toNat ≤ 57 then some (digit.toNat - 48) else none

/-- The number that digits go on to spell after the digits of another. -/
def extend? (before : Nat) : List Char → Option Nat
  | [] => some before
  | digit :: rest => do
    -- Each further digit is worth a tenth of the one before.
    let value ← value? digit
    extend? (10 * before + value) rest

/-- The number that digits spell; there must be one at least. -/
def ofDigits? : List Char → Option Nat
  | [] => none
  | digits => extend? 0 digits

/-- The number that digits spell, with or without a plus sign. -/
def unsigned? : List Char → Option Nat
  | '+' :: digits => ofDigits? digits
  | digits => ofDigits? digits

/-- The number that digits spell, with or without a sign of either kind. -/
def signed? : List Char → Option Int
  | '-' :: digits => (ofDigits? digits).map fun value => -(value : Int)
  | digits => (unsigned? digits).map fun value => (value : Int)

/-- A number of 64 bits; a minus sign is refused even before zero. -/
def word64? (text : String) : Option UInt64 := do
  -- A number that is too large is refused and not reduced.
  let value ← unsigned? text.toList
  if value < UInt64.size then some (UInt64.ofNat value) else none

/-- A number of 32 bits; it may have a minus sign, which only zero survives. -/
def word32? (text : String) : Option UInt32 := do
  -- Numbers below zero are read first and refused for their size.
  let value ← signed? text.toList
  if 0 ≤ value ∧ value.toNat < UInt32.size then some (UInt32.ofNat value.toNat) else none

end Decimal

namespace Duration

/-- How many parts make a whole where each decimal place divides by ten. -/
def parts : Nat → Nat
  | 0 => 1
  | places + 1 => 10 * parts places

/-- The digits behind the point of a number of parts that make no whole. -/
def fraction : Nat → Nat → List Char
  | 0, _ => []
  | places + 1, count =>
    -- Zeros at the end are left out, so nothing is written once nothing is left.
    if count = 0 then []
    else Nat.digitChar (count / parts places) :: fraction places (count % parts places)

/-- A number of parts, written in the unit that they make up. -/
def inUnit (places count : Nat) (unit : String) : String :=
  let behind := fraction places (count % parts places)
  -- The point is left out where no digit follows it.
  (count / parts places).repr ++ (if behind = [] then "" else "." ++ String.ofList behind) ++ unit

/-- A number of nanoseconds, written in the largest unit that it fills. -/
def text (nanoseconds : Nat) : String :=
  if parts 9 ≤ nanoseconds then inUnit 9 nanoseconds "s"
  else if parts 6 ≤ nanoseconds then inUnit 6 nanoseconds "ms"
  else if parts 3 ≤ nanoseconds then inUnit 3 nanoseconds "µs"
  else inUnit 0 nanoseconds "ns"

/-- A digit has the value that it is written for. -/
theorem value?_digitChar (value : Nat) (small : value < 10) :
    Decimal.value? (Nat.digitChar value) = some value := by
  -- The digits follow one another from code 48 on.
  have code := Nat.toNat_digitChar_of_lt_ten small
  have within : 48 ≤ 48 + value ∧ 48 + value ≤ 57 := by omega
  rw [Decimal.value?, code, if_pos within, Nat.add_sub_cancel_left]

/-- A whole has parts at any number of places. -/
theorem parts_pos (places : Nat) : 0 < parts places := by
  -- Each place multiplies their number by ten.
  induction places with
  | zero => decide
  | succ places ih => exact Nat.mul_pos (by decide) ih

/-- Each zero that follows multiplies a number by ten. -/
theorem extend?_zeros (before count : Nat) :
    Decimal.extend? before (List.replicate count '0') = some (before * parts count) := by
  -- The zeros are read one by one, and each adds nothing to ten times what comes before.
  induction count generalizing before with
  | zero => rw [parts, Nat.mul_one]; rfl
  | succ count ih =>
    have zero : Decimal.value? '0' = some 0 := rfl
    rw [List.replicate_succ, Decimal.extend?, zero]
    show Decimal.extend? (10 * before + 0) _ = _
    rw [ih, parts, Nat.add_zero, Nat.mul_comm 10, Nat.mul_assoc]

/-- No part is lost: the digits behind the point, filled up with zeros, spell the number of parts. -/
theorem extend?_fraction (places count before : Nat) (below : count < parts places) :
    Decimal.extend? before
        (fraction places count ++ List.replicate (places - (fraction places count).length) '0') =
      some (before * parts places + count) := by
  -- The first digit counts the whole tenths, and the other digits spell what is left of them.
  induction places generalizing count before with
  | zero =>
    have none : count = 0 := by
      rw [parts] at below
      omega
    simp [fraction, Decimal.extend?, none, parts]
  | succ places ih =>
    by_cases done : count = 0
    · simp [fraction, done, extend?_zeros]
    · have positive := parts_pos places
      have small : count / parts places < 10 := by
        rw [Nat.div_lt_iff_lt_mul positive]
        exact below
      have whole : parts places * (count / parts places) + count % parts places = count :=
        Nat.div_add_mod count (parts places)
      rw [fraction, if_neg done, List.length_cons, Nat.succ_sub_succ, List.cons_append,
        Decimal.extend?, value?_digitChar _ small]
      show Decimal.extend? (10 * before + count / parts places) _ = _
      rw [ih _ _ (Nat.mod_lt count positive)]
      congr 1
      rw [parts, Nat.add_mul, Nat.mul_comm (count / parts places), Nat.add_assoc, whole,
        Nat.mul_comm 10, Nat.mul_assoc]

/-- A millisecond and a half is written with one digit behind the point. -/
example : text 1500000 = "1.5ms" := by decide

end Duration

end Blake2F
