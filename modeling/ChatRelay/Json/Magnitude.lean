/-!
# Numbers beyond the binary range

A JSON number that is kept but is no integer of 64 bits is read as a binary floating-point number
of 53 bits, and it is refused when its magnitude rounds to infinity. Only that decision is needed
here, never the value, and it is taken in exact arithmetic: `roundTo53` rounds a natural number to
53 significant bits with ties to the even neighbour, and a product is infinite when its rounding
reaches `2 ^ 1024`.

A literal contributes at most as many leading digits as fit in 64 bits. `Significand.push` appends
one digit as long as it fits; after that the digits of the integer part only raise the exponent.
-/

namespace ChatRelay.Json

/-- Round to 53 significant bits, a tie to the even neighbour. -/
def roundTo53 (n : Nat) : Nat :=
  if n < 1 <<< 53 then n
  else
    let shift := Nat.log2 n - 52
    let kept := n >>> shift
    let lost := n % 1 <<< shift
    let half := 1 <<< (shift - 1)
    let up := half < lost || (lost == half && kept % 2 == 1)
    (if up then kept + 1 else kept) <<< shift

/-- The greatest power of ten that a single multiplication scales by. -/
abbrev maxScale : Nat := 308

/-- `mantissa * 10 ^ exponent` rounds to infinity. -/
def isInfinite (mantissa : Nat) (exponent : Int) : Bool :=
  mantissa != 0 &&
    ((maxScale : Int) < exponent ||
      (0 ≤ exponent &&
        1 <<< 1024 ≤ roundTo53 (roundTo53 mantissa * roundTo53 (Nat.pow 10 exponent.toNat))))

/-- The leading digits of a literal and the power of ten that scales them. -/
structure Significand where
  mantissa : Nat
  exponent : Int
  deriving DecidableEq, Repr

namespace Significand

/-- The mantissa with one more digit fits in 64 bits. -/
def hasRoomFor (mantissa digit : Nat) : Bool :=
  10 * mantissa + digit < UInt64.size

/-- Read the digits of the integer part. -/
def ofInteger (mantissa : Nat) : List Nat → Significand
  | [] => ⟨mantissa, 0⟩
  | d :: ds =>
    if hasRoomFor mantissa d then ofInteger (10 * mantissa + d) ds
    else ⟨mantissa, (d :: ds).length⟩

/-- Append the digits of the fraction; the first one without room ends the reading. -/
def addFraction (s : Significand) : List Nat → Significand
  | [] => s
  | d :: ds =>
    if hasRoomFor s.mantissa d then addFraction ⟨10 * s.mantissa + d, s.exponent - 1⟩ ds else s

/-- Scale by a power of ten. -/
def scale (s : Significand) (exponent : Int) : Significand :=
  { s with exponent := s.exponent + exponent }

/-- The number rounds to infinity. -/
def isInfinite (s : Significand) : Bool :=
  Json.isInfinite s.mantissa s.exponent

end Significand

example : isInfinite 17976931348623157 292 = false ∧ isInfinite 17976931348623159 292 = true := by
  decide +kernel

end ChatRelay.Json
