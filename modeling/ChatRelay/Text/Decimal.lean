/-!
# Decimal literals

Integers written in decimal: an optional sign, then one or more ASCII digits, then nothing else.
Leading zeros are allowed, separators and blanks are not. `signed?` takes either sign,
`unsigned?` takes only a plus. Both read the whole text or nothing, and leave the range to the
caller; `int64?` and `natBelow?` add the ranges that the rest of the library needs.
-/

namespace ChatRelay.Text.Decimal

/-- The value of an ASCII digit. -/
def digit? (c : Char) : Option Nat :=
  if '0' ≤ c ∧ c ≤ '9' then some (c.toNat - '0'.toNat) else none

/-- Read digits after a prefix of value `acc`; the list may be empty. -/
def digitsFrom? (acc : Nat) : List Char → Option Nat
  | [] => some acc
  | c :: cs => (digit? c).bind fun d => digitsFrom? (10 * acc + d) cs

/-- One or more digits. -/
def digits? : List Char → Option Nat
  | [] => none
  | c :: cs => digitsFrom? 0 (c :: cs)

/-- An integer with an optional sign. -/
def signed? : List Char → Option Int
  | '+' :: cs => (digits? cs).map Int.ofNat
  | '-' :: cs => (digits? cs).map fun n => -(n : Int)
  | cs => (digits? cs).map Int.ofNat

/-- A natural number with an optional plus sign. -/
def unsigned? : List Char → Option Nat
  | '+' :: cs => digits? cs
  | cs => digits? cs

/-- The least integer of 64 bits. -/
abbrev minInt64 : Int := Int64.minValue.toInt

/-- The greatest integer of 64 bits. -/
abbrev maxInt64 : Int := Int64.maxValue.toInt

/-- A signed integer of 64 bits. -/
def int64? (cs : List Char) : Option Int64 :=
  (signed? cs).bind fun i => if minInt64 ≤ i ∧ i ≤ maxInt64 then some (Int64.ofInt i) else none

/-- A natural number below `bound`. -/
def natBelow? (bound : Nat) (cs : List Char) : Option Nat :=
  (unsigned? cs).filter (· < bound)

end ChatRelay.Text.Decimal
