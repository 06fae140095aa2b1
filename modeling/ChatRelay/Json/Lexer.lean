import ChatRelay.Json.Magnitude
import ChatRelay.Json.Token

/-!
# From bytes to JSON tokens

`tokens` reads a whole text, byte by byte, because a text that is only skipped need not be valid
UTF-8. Each scanner takes the bytes after the first one and returns a token together with the
bytes behind it; none of them looks further ahead than that, apart from the four digits of a
code-point escape, which count as missing when fewer than four bytes are left. That no scanner
returns more than it was given is what makes `tokens` terminate.
-/

namespace ChatRelay.Json

/-- The four blanks of JSON. -/
def isBlankByte (b : UInt8) : Bool :=
  b == 0x20 || b == 0x0A || b == 0x0D || b == 0x09

/-! ## Literal names -/

/-- Read the remaining letters of a literal name. -/
def scanWord (value : Token) : List UInt8 → List UInt8 → Token × List UInt8
  | [], rest => (value, rest)
  | _ :: _, [] => (.brokenWord .truncated, [])
  | w :: ws, b :: rest => if b = w then scanWord value ws rest else (.brokenWord .malformed, rest)

/-! ## Numbers -/

/-- An ASCII digit. -/
def isDigitByte (b : UInt8) : Bool :=
  0x30 ≤ b && b ≤ 0x39

/-- The values of digit bytes. -/
def digitValues (bs : List UInt8) : List Nat :=
  bs.map fun b => b.toNat - 0x30

/-- The number that `digits` denote, most significant first. -/
def ofDigits (digits : List Nat) : Nat :=
  digits.foldl (fun n d => 10 * n + d) 0

/-- The flaw of a number that needs a digit where `rest` begins. -/
def digitFlaw (rest : List UInt8) : Flaw :=
  if rest.isEmpty then .truncated else .malformed

/-- A number that is not read as an integer. -/
def inexact (s : Significand) : Number :=
  if s.isInfinite then .infinite else .fractional

/-- An integer literal; a minus zero and an integer beyond 64 bits are not read as integers. -/
def integerNumber (negative : Bool) (digits : List Nat) : Number :=
  let n := ofDigits digits
  if negative then
    if 0 < n && n ≤ 1 <<< 63 then .whole (-(n : Int)) else inexact (.ofInteger 0 digits)
  else if n < UInt64.size then .whole n
  else inexact (.ofInteger 0 digits)

/-- Read the digits of an exponent. -/
def scanExponentDigits (s : Significand) (negative : Bool) (bs : List UInt8) :
    Token × List UInt8 :=
  let digits := bs.takeWhile isDigitByte
  let rest := bs.dropWhile isDigitByte
  if digits.isEmpty then (.brokenNumber (digitFlaw rest), rest)
  else
    let e : Int := ofDigits (digitValues digits)
    (.number (inexact (s.scale (if negative then -e else e))), rest)

/-- Read the sign and the digits of an exponent. -/
def scanExponent (s : Significand) : List UInt8 → Token × List UInt8
  | 0x2B :: rest => scanExponentDigits s false rest
  | 0x2D :: rest => scanExponentDigits s true rest
  | rest => scanExponentDigits s false rest

/-- Read the digits of a fraction, and the exponent if there is one. -/
def scanFraction (s : Significand) (bs : List UInt8) : Token × List UInt8 :=
  let digits := bs.takeWhile isDigitByte
  let rest := bs.dropWhile isDigitByte
  if digits.isEmpty then (.brokenNumber (digitFlaw rest), rest)
  else
    let s := s.addFraction (digitValues digits)
    match rest with
    | 0x65 :: r => scanExponent s r
    | 0x45 :: r => scanExponent s r
    | r => (.number (inexact s), r)

/-- Read a number from its first digit on. A leading zero stands alone. -/
def scanNumber (negative : Bool) (bs : List UInt8) : Token × List UInt8 :=
  let digits := bs.takeWhile isDigitByte
  let rest := bs.dropWhile isDigitByte
  match digits with
  | [] => (.brokenNumber (digitFlaw rest), rest)
  | 0x30 :: _ :: _ => (.brokenNumber .malformed, rest)
  | digits =>
    let s := Significand.ofInteger 0 (digitValues digits)
    match rest with
    | 0x2E :: r => scanFraction s r
    | 0x65 :: r => scanExponent s r
    | 0x45 :: r => scanExponent s r
    | r => (.number (integerNumber negative (digitValues digits)), r)

/-! ## Texts -/

/-- The value of a hexadecimal digit of either case. -/
def hexValue? (b : UInt8) : Option Nat :=
  if 0x30 ≤ b ∧ b ≤ 0x39 then some (b.toNat - 0x30)
  else if 0x41 ≤ b ∧ b ≤ 0x46 then some (b.toNat - 0x37)
  else if 0x61 ≤ b ∧ b ≤ 0x66 then some (b.toNat - 0x57)
  else none

/-- The UTF-16 unit that four hexadecimal digits denote. -/
def unit? (a b c d : UInt8) : Option Nat :=
  (hexValue? a).bind fun a => (hexValue? b).bind fun b => (hexValue? c).bind fun c =>
    (hexValue? d).map fun d => ((16 * a + b) * 16 + c) * 16 + d

/-- The unit is the first half of a surrogate pair. -/
def isLeading (n : Nat) : Bool :=
  0xD800 ≤ n && n ≤ 0xDBFF

/-- The unit is the second half of a surrogate pair. -/
def isTrailing (n : Nat) : Bool :=
  0xDC00 ≤ n && n ≤ 0xDFFF

/-- The code point that a surrogate pair encodes. -/
def pairCodePoint (lead trail : Nat) : Nat :=
  (lead - 0xD800) * 0x400 + (trail - 0xDC00) + 0x10000

/-- The UTF-8 bytes of a code point, last one first. -/
def reversedBytes (n : Nat) : List UInt8 :=
  (String.utf8EncodeChar (Char.ofNat n)).reverse

/-- What a one-letter escape stands for. -/
def simpleEscape? (b : UInt8) : Option UInt8 :=
  match b with
  | 0x22 => some 0x22
  | 0x5C => some 0x5C
  | 0x2F => some 0x2F
  | 0x62 => some 0x08
  | 0x66 => some 0x0C
  | 0x6E => some 0x0A
  | 0x72 => some 0x0D
  | 0x74 => some 0x09
  | _ => none

/-- A text that ends before its closing quote. -/
def cutText (paired : Bool) : Token :=
  .brokenText (if paired then .truncated else .malformed) .truncated

/-- A text with a fault that keeping and skipping refuse alike. -/
def badText : Token :=
  .brokenText .malformed .malformed

/-- The content of a complete text whose surrogates are paired, if it is UTF-8. -/
def textContent (paired : Bool) (reversed : List UInt8) : Option String :=
  if paired then String.fromUTF8? (ByteArray.mk reversed.reverse.toArray) else none

/-- Read a text after its opening quote. `acc` holds the bytes read so far, last one first, and
`paired` tells that no unpaired surrogate has been met. -/
def scanTextFrom (acc : List UInt8) (paired : Bool) : List UInt8 → Token × List UInt8
  | [] => (cutText paired, [])
  | 0x22 :: rest => (.text (textContent paired acc), rest)
  | 0x5C :: 0x75 :: a :: b :: c :: d :: rest =>
    match unit? a b c d with
    | none => (badText, rest)
    | some n =>
      if isTrailing n then scanTextFrom acc false rest
      else if isLeading n then
        match rest with
        | 0x5C :: 0x75 :: a' :: b' :: c' :: d' :: rest' =>
          match unit? a' b' c' d' with
          | none => (badText, rest')
          | some m =>
            if isTrailing m then
              scanTextFrom (reversedBytes (pairCodePoint n m) ++ acc) paired rest'
            else scanTextFrom acc false rest'
        | [] => (cutText paired, [])
        | [0x5C] => (cutText paired, [])
        | 0x5C :: 0x75 :: _ => (cutText paired, [])
        | b' :: rest' => scanTextFrom acc false (b' :: rest')
      else scanTextFrom (reversedBytes n ++ acc) paired rest
  | 0x5C :: 0x75 :: _ => (cutText paired, [])
  | [0x5C] => (cutText paired, [])
  | 0x5C :: b :: rest =>
    match simpleEscape? b with
    | some e => scanTextFrom (e :: acc) paired rest
    | none => (badText, rest)
  | b :: rest => if b < 0x20 then (badText, rest) else scanTextFrom (b :: acc) paired rest

/-- Read a text after its opening quote. -/
def scanText (bs : List UInt8) : Token × List UInt8 :=
  scanTextFrom [] true bs

/-! ## One token -/

/-- The token that begins with the byte `b`, and what follows it. -/
def scan (b : UInt8) (rest : List UInt8) : Token × List UInt8 :=
  match b with
  | 0x7B => (.beginObject, rest)
  | 0x7D => (.endObject, rest)
  | 0x5B => (.beginArray, rest)
  | 0x5D => (.endArray, rest)
  | 0x3A => (.colon, rest)
  | 0x2C => (.comma, rest)
  | 0x22 => scanText rest
  | 0x6E => scanWord .null [0x75, 0x6C, 0x6C] rest
  | 0x74 => scanWord (.bool true) [0x72, 0x75, 0x65] rest
  | 0x66 => scanWord (.bool false) [0x61, 0x6C, 0x73, 0x65] rest
  | 0x2D => scanNumber true rest
  | b => if isDigitByte b then scanNumber false (b :: rest) else (.stray, rest)

/-! ## No scanner returns more than it was given -/

theorem length_scanWord_le (value : Token) (ws bs : List UInt8) :
    (scanWord value ws bs).2.length ≤ bs.length := by
  fun_induction scanWord value ws bs <;> simp_all <;> omega

theorem length_dropDigits_le (bs : List UInt8) :
    (bs.dropWhile isDigitByte).length ≤ bs.length :=
  (List.dropWhile_sublist _).length_le

theorem length_scanExponentDigits_le (s : Significand) (negative : Bool) (bs : List UInt8) :
    (scanExponentDigits s negative bs).2.length ≤ bs.length := by
  unfold scanExponentDigits
  dsimp only
  split <;> exact length_dropDigits_le bs

theorem length_scanExponent_le (s : Significand) (bs : List UInt8) :
    (scanExponent s bs).2.length ≤ bs.length := by
  unfold scanExponent
  split
  · exact Nat.le_succ_of_le (length_scanExponentDigits_le _ _ _)
  · exact Nat.le_succ_of_le (length_scanExponentDigits_le _ _ _)
  · exact length_scanExponentDigits_le _ _ _

theorem length_scanFraction_le (s : Significand) (bs : List UInt8) :
    (scanFraction s bs).2.length ≤ bs.length := by
  have drop := length_dropDigits_le bs
  unfold scanFraction
  dsimp only
  split
  · exact drop
  · split
    next r h =>
      have := length_scanExponent_le (s.addFraction (digitValues (bs.takeWhile isDigitByte))) r
      simp only [h, List.length_cons] at drop
      omega
    next r h =>
      have := length_scanExponent_le (s.addFraction (digitValues (bs.takeWhile isDigitByte))) r
      simp only [h, List.length_cons] at drop
      omega
    next => exact drop

/-- What follows the digits of the integer part bounds what follows the number. -/
theorem length_scanNumber_le_dropDigits (negative : Bool) (bs : List UInt8) :
    (scanNumber negative bs).2.length ≤ (bs.dropWhile isDigitByte).length := by
  unfold scanNumber
  dsimp only
  split
  · exact Nat.le_refl _
  · exact Nat.le_refl _
  · split
    next r h => rw [h]; exact Nat.le_succ_of_le (length_scanFraction_le _ _)
    next r h => rw [h]; exact Nat.le_succ_of_le (length_scanExponent_le _ _)
    next r h => rw [h]; exact Nat.le_succ_of_le (length_scanExponent_le _ _)
    next => exact Nat.le_refl _

theorem length_scanNumber_le (negative : Bool) (bs : List UInt8) :
    (scanNumber negative bs).2.length ≤ bs.length :=
  Nat.le_trans (length_scanNumber_le_dropDigits negative bs) (length_dropDigits_le bs)

/-- A number that starts with a digit takes at least that digit. -/
theorem length_scanNumber_cons_le {b : UInt8} (h : isDigitByte b = true) (negative : Bool)
    (rest : List UInt8) : (scanNumber negative (b :: rest)).2.length ≤ rest.length := by
  refine Nat.le_trans (length_scanNumber_le_dropDigits negative (b :: rest)) ?_
  rw [List.dropWhile_cons_of_pos h]
  exact length_dropDigits_le rest

theorem length_scanTextFrom_le (acc : List UInt8) (paired : Bool) (bs : List UInt8) :
    (scanTextFrom acc paired bs).2.length ≤ bs.length := by
  fun_induction scanTextFrom acc paired bs <;> simp_all <;> omega

theorem length_scan_le (b : UInt8) (rest : List UInt8) :
    (scan b rest).2.length ≤ rest.length := by
  unfold scan
  split
  case h_7 => exact length_scanTextFrom_le _ _ _
  case h_8 => exact length_scanWord_le _ _ _
  case h_9 => exact length_scanWord_le _ _ _
  case h_10 => exact length_scanWord_le _ _ _
  case h_11 => exact length_scanNumber_le _ _
  case h_12 =>
    split
    next h => exact length_scanNumber_cons_le h _ _
    next => exact Nat.le_refl _
  all_goals exact Nat.le_refl _

/-! ## All tokens -/

/-- Read the tokens of a text behind those of `acc`, which holds the last one first. -/
def tokensOnto (acc : List Token) : List UInt8 → List Token
  | [] => acc.reverse
  | b :: rest =>
    if isBlankByte b then tokensOnto acc rest
    else if (scan b rest).1.isBroken then ((scan b rest).1 :: acc).reverse
    else tokensOnto ((scan b rest).1 :: acc) (scan b rest).2
  termination_by bs => bs.length
  decreasing_by
    · simp
    · exact Nat.lt_succ_of_le (length_scan_le b rest)

/-- The tokens of a text, up to the first broken one. -/
def tokens (bs : List UInt8) : List Token :=
  tokensOnto [] bs

end ChatRelay.Json
