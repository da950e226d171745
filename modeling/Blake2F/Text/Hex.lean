import Blake2F.Bytes

/-! Hexadecimal text: two digits for each byte, which readers may find between white space and behind markers. -/

namespace Blake2F

namespace Blank

/-- The characters with the property White_Space, in ranges of code points. -/
def ranges : List (Nat × Nat) :=
  [(0x09, 0x0d), (0x20, 0x20), (0x85, 0x85), (0xa0, 0xa0), (0x1680, 0x1680), (0x2000, 0x200a),
    (0x2028, 0x2029), (0x202f, 0x202f), (0x205f, 0x205f), (0x3000, 0x3000)]

/-- Whether a character is white space. -/
def isBlank (c : Char) : Bool := ranges.any fun range => range.1 ≤ c.toNat && c.toNat ≤ range.2

/-- The text without the white space at its two ends. -/
def trim (text : List Char) : List Char :=
  -- The end of a text is the start of its reverse.
  ((text.dropWhile isBlank).reverse.dropWhile isBlank).reverse

end Blank

namespace Hex

/-- The lower-case digit of a number below sixteen. -/
def digit (value : Nat) : Char :=
  -- The digits start at code 48 and the letters at code 97.
  Char.ofNat (if value < 10 then 48 + value else 87 + value)

/-- The value of a digit in either case. -/
def value? (digit : Char) : Option Nat :=
  -- Digits, upper-case letters and lower-case letters each lie in one range of codes.
  let code := digit.toNat
  if 48 ≤ code ∧ code ≤ 57 then some (code - 48)
  else if 65 ≤ code ∧ code ≤ 70 then some (code - 55)
  else if 97 ≤ code ∧ code ≤ 102 then some (code - 87)
  else none

/-- The two digits of a byte. -/
def pair (byte : UInt8) : List Char := [digit (byte.toNat / 16), digit (byte.toNat % 16)]

/-- The digits of a byte string. -/
def digits (bytes : Bytes) : List Char := bytes.flatMap pair

/-- The text of a byte string, in lower case and with no marker in front. -/
def encode (bytes : Bytes) : String := String.ofList (digits bytes)

/-- The bytes of an even number of digits. -/
def ofDigits? : List Char → Option Bytes
  | [] => some []
  | [_] => none
  | high :: low :: rest => do
    -- A pair with a bad digit spoils the whole text.
    let high ← value? high
    let low ← value? low
    let rest ← ofDigits? rest
    return UInt8.ofNat (16 * high + low) :: rest

/-- A digit has the value that it is written for. -/
theorem value?_digit (value : Nat) (small : value < 16) : value? (digit value) = some value := by
  -- There are sixteen digits.
  rcases value with _ | _ | _ | _ | _ | _ | _ | _ | _ | _ | _ | _ | _ | _ | _ | _ | value
  all_goals first | rfl | omega

/-- The digits of a byte string are read back as that byte string. -/
@[simp] theorem ofDigits?_digits (bytes : Bytes) : ofDigits? (digits bytes) = some bytes := by
  -- The two halves of each byte make it up again.
  induction bytes with
  | nil => rfl
  | cons byte rest ih =>
    have bound := byte.toNat_lt
    have whole : UInt8.ofNat (16 * (byte.toNat / 16) + byte.toNat % 16) = byte := by
      rw [Nat.div_add_mod, UInt8.ofNat_toNat]
    have high := value?_digit (byte.toNat / 16) (by omega)
    have low := value?_digit (byte.toNat % 16) (by omega)
    rw [digits] at ih
    simp only [digits, pair, List.flatMap_cons, List.cons_append, List.nil_append, ofDigits?, high,
      low, ih, Option.bind_eq_bind, Option.bind_some, Option.pure_def, whole]

/-- Removes every marker in lower case from the front. -/
def dropMarkers : List Char → List Char
  | '0' :: 'x' :: rest => dropMarkers rest
  | text => text

/-- Removes one marker of either case from the front. -/
def dropMarker : List Char → List Char
  | '0' :: 'x' :: rest => rest
  | '0' :: 'X' :: rest => rest
  | text => text

/-- The bytes of a text: its ends are trimmed, its markers removed, and what is left must be pairs of digits. -/
def parse? (text : String) : Option Bytes :=
  -- Markers in lower case may be repeated, and one in upper case may follow them.
  ofDigits? (dropMarker (dropMarkers (Blank.trim text.toList)))

end Hex

end Blake2F
