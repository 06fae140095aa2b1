import ChatRelay.Proofs.Json.Spelling

/-!
# Every way to write a token

A token is printed in one way, and others may write it in many. The characters of a text may stand
for themselves or be escaped, by a letter or by the digits of one or two UTF-16 units
(`Piece.content?`); a number may have a fraction and an exponent (`NumberLiteral`). `Lexeme cs t`
says that the characters `cs` are some way to write the token `t`, and `TextOf ts cs` that they are
lexemes of the tokens `ts` with blanks anywhere between them.

All of these are read (`Lexeme.readFrom`, `TextOf.tokens_eq`). What a writer must know about the
scanners is not in the definitions: that nothing continues a number follows from the tokens alone.
-/

namespace ChatRelay.Json

/-! ## Pieces of a text -/

/-- A hexadecimal digit of either case. -/
structure HexDigit where
  value : Fin 16
  isUpper : Bool

def HexDigit.char (d : HexDigit) : Char :=
  if d.isUpper then (Nat.digitChar d.value).toUpper else Nat.digitChar d.value

/-- The one-letter escapes, with what they stand for. -/
def simpleEscapes : List (Char × Char) :=
  [('"', '"'), ('\\', '\\'), ('/', '/'), ('b', '\x08'), ('f', '\x0c'), ('n', '\n'), ('r', '\r'),
    ('t', '\t')]

/-- A character that stands for itself, an escape of one letter, or a UTF-16 unit that is given by
its digits. -/
inductive Piece where
  | plain (c : Char) (h : c ≠ '"' ∧ c ≠ '\\' ∧ 0x20 ≤ c.toNat)
  | escape (letter c : Char) (h : (letter, c) ∈ simpleEscapes)
  | unit (a b c d : HexDigit)

namespace Piece

def chars : Piece → List Char
  | plain c _ => [c]
  | escape letter _ _ => ['\\', letter]
  | unit a b c d => ['\\', 'u', a.char, b.char, c.char, d.char]

/-- The unit that four digits denote. -/
def unitOf (a b c d : HexDigit) : Nat :=
  ((16 * a.value + b.value) * 16 + c.value) * 16 + d.value

/-- The characters that pieces stand for, if the halves of surrogate pairs stand together. -/
def content? : List Piece → Option (List Char)
  | [] => some []
  | plain c _ :: ps => (content? ps).map (c :: ·)
  | escape _ c _ :: ps => (content? ps).map (c :: ·)
  | unit a b c d :: ps =>
    if isTrailing (unitOf a b c d) then none
    else if isLeading (unitOf a b c d) then
      match ps with
      | unit a' b' c' d' :: ps =>
        if isTrailing (unitOf a' b' c' d') then
          (content? ps).map (Char.ofNat (pairCodePoint (unitOf a b c d) (unitOf a' b' c' d')) :: ·)
        else none
      | _ => none
    else (content? ps).map (Char.ofNat (unitOf a b c d) :: ·)

/-- The pieces between the quotes of a text. -/
def spell (ps : List Piece) : List Char :=
  ps.flatMap chars

end Piece

section Texts

variable {acc bs rest : List UInt8} {paired : Bool} {a b c d a' b' c' d' : HexDigit}

open Piece (unitOf content? spell)

theorem HexDigit.utf8_cons_char (d : HexDigit) (cs : List Char) :
    utf8 (d.char :: cs) = UInt8.ofNat d.char.toNat :: utf8 cs := by
  have hascii : ∀ (v : Fin 16) (u : Bool), (HexDigit.char ⟨v, u⟩).toNat < 0x80 := by decide
  rw [utf8_cons, utf8EncodeChar_of_lt (hascii d.value d.isUpper), List.singleton_append]

theorem HexDigit.hexValue?_char (d : HexDigit) :
    hexValue? (UInt8.ofNat d.char.toNat) = some d.value.val := by
  have hvalue : ∀ (v : Fin 16) (u : Bool),
      hexValue? (UInt8.ofNat (HexDigit.char ⟨v, u⟩).toNat) = some v.val := by decide
  exact hvalue d.value d.isUpper

theorem unit?_chars : unit? (UInt8.ofNat a.char.toNat) (UInt8.ofNat b.char.toNat)
    (UInt8.ofNat c.char.toNat) (UInt8.ofNat d.char.toNat) = some (unitOf a b c d) := by
  simp only [unit?, HexDigit.hexValue?_char, Option.bind_some, Option.map_some, unitOf]

/-- The bytes of a unit that is given by its digits. -/
theorem utf8_unit : utf8 (Piece.unit a b c d).chars =
    [0x5C, 0x75, UInt8.ofNat a.char.toNat, UInt8.ofNat b.char.toNat, UInt8.ofNat c.char.toNat,
      UInt8.ofNat d.char.toNat] := by
  have hhead (cs : List Char) : utf8 ('\\' :: 'u' :: cs) = 0x5C :: 0x75 :: utf8 cs := rfl
  rw [Piece.chars, hhead]
  simp only [HexDigit.utf8_cons_char, utf8_nil]

theorem scanTextFrom_plainPiece {c : Char} (h : c ≠ '"' ∧ c ≠ '\\' ∧ 0x20 ≤ c.toNat) :
    scanTextFrom acc paired (utf8 (Piece.plain c h).chars ++ rest) =
      scanTextFrom ((String.utf8EncodeChar c).reverse ++ acc) paired rest := by
  rw [Piece.chars, utf8_cons, utf8_nil, List.append_nil]
  exact scanTextFrom_plain_append fun b hb => mem_utf8EncodeChar_plain h.1 h.2.1 h.2.2 hb

theorem scanTextFrom_escapePiece {letter c : Char} (h : (letter, c) ∈ simpleEscapes) :
    scanTextFrom acc paired (utf8 (Piece.escape letter c h).chars ++ rest) =
      scanTextFrom ((String.utf8EncodeChar c).reverse ++ acc) paired rest := by
  have hescapes : ∀ p ∈ simpleEscapes, String.utf8EncodeChar p.1 = [UInt8.ofNat p.1.toNat] ∧
      String.utf8EncodeChar p.2 = [UInt8.ofNat p.2.toNat] ∧
      simpleEscape? (UInt8.ofNat p.1.toNat) = some (UInt8.ofNat p.2.toNat) := by
    decide +kernel
  obtain ⟨hletter, hc, hstands⟩ := hescapes _ h
  dsimp only at hletter hc hstands
  rw [Piece.chars, utf8_cons, utf8_cons, utf8_nil, hletter, hc]
  exact scanTextFrom_escape hstands

/-- A unit that is no half of a pair is a character. -/
theorem scanTextFrom_unitPiece (ht : isTrailing (unitOf a b c d) = false)
    (hl : isLeading (unitOf a b c d) = false) :
    scanTextFrom acc paired (utf8 (Piece.unit a b c d).chars ++ rest) =
      scanTextFrom ((String.utf8EncodeChar (Char.ofNat (unitOf a b c d))).reverse ++ acc) paired
        rest := by
  rw [utf8_unit]
  exact scanTextFrom_unit unit?_chars hl ht

theorem scanTextFrom_trailing (ht : isTrailing (unitOf a b c d) = true) :
    scanTextFrom acc paired (utf8 (Piece.unit a b c d).chars ++ rest) =
      scanTextFrom acc false rest := by
  rw [utf8_unit, List.cons_append, List.cons_append, List.cons_append, List.cons_append,
    List.cons_append, List.cons_append, List.nil_append, scanTextFrom]
  simp [unit?_chars, ht]

/-- A unit that is the first half of a pair, and another unit. -/
theorem scanTextFrom_leading_unit (ht : isTrailing (unitOf a b c d) = false)
    (hl : isLeading (unitOf a b c d) = true) :
    scanTextFrom acc paired
        (utf8 (Piece.unit a b c d).chars ++ (utf8 (Piece.unit a' b' c' d').chars ++ rest)) =
      if isTrailing (unitOf a' b' c' d') then
        scanTextFrom ((String.utf8EncodeChar (Char.ofNat
          (pairCodePoint (unitOf a b c d) (unitOf a' b' c' d')))).reverse ++ acc) paired rest
      else scanTextFrom acc false rest := by
  rw [utf8_unit, utf8_unit]
  simp only [List.cons_append, List.nil_append]
  rw [scanTextFrom]
  simp [unit?_chars, ht, hl, reversedBytes]

/-- A unit that is the first half of a pair, and no unit behind it. -/
theorem scanTextFrom_leading_alone (ht : isTrailing (unitOf a b c d) = false)
    (hl : isLeading (unitOf a b c d) = true) (hne : bs ≠ []) (hcut : bs ≠ [0x5C])
    (hunit : ∀ bs', bs ≠ 0x5C :: 0x75 :: bs') :
    scanTextFrom acc paired (utf8 (Piece.unit a b c d).chars ++ bs) =
      scanTextFrom acc false bs := by
  rw [utf8_unit]
  simp only [List.cons_append, List.nil_append]
  rw [scanTextFrom]
  simp only [unit?_chars, ht, hl, if_true, if_false, Bool.false_eq_true]
  split <;> simp_all

theorem utf8_spell_cons (p : Piece) (ps : List Piece) (bs : List UInt8) :
    utf8 (spell (p :: ps)) ++ bs = utf8 p.chars ++ (utf8 (spell ps) ++ bs) := by
  rw [spell, List.flatMap_cons, utf8_append, List.append_assoc]
  rfl

/-- No unit begins where the next piece is not one. -/
theorem utf8_spell_alone (rest : List UInt8) {ps : List Piece}
    (h : ∀ a b c d ps', ps ≠ .unit a b c d :: ps') :
    utf8 (spell ps) ++ 0x22 :: rest ≠ [] ∧ utf8 (spell ps) ++ 0x22 :: rest ≠ [0x5C] ∧
      ∀ bs', utf8 (spell ps) ++ 0x22 :: rest ≠ 0x5C :: 0x75 :: bs' := by
  match ps with
  | [] => exact ⟨nofun, nofun, nofun⟩
  | .plain c hc :: ps =>
    obtain ⟨b, bs, hbs⟩ := List.exists_cons_of_ne_nil (String.utf8EncodeChar_ne_nil (c := c))
    have hb : b ≠ 0x5C :=
      (mem_utf8EncodeChar_plain hc.1 hc.2.1 hc.2.2 (hbs ▸ List.mem_cons_self)).2.1
    rw [utf8_spell_cons, Piece.chars, utf8_cons, hbs]
    simp [hb]
  | .escape letter c hc :: ps =>
    have hletters : ∀ p ∈ simpleEscapes,
        String.utf8EncodeChar p.1 = [UInt8.ofNat p.1.toNat] ∧ UInt8.ofNat p.1.toNat ≠ 0x75 := by
      decide +kernel
    obtain ⟨hletter, hne⟩ := hletters _ hc
    have hhead : utf8 ['\\', letter] = [0x5C, UInt8.ofNat letter.toNat] := by
      rw [utf8_cons, utf8_cons, utf8_nil, hletter]
      rfl
    rw [utf8_spell_cons, Piece.chars, hhead]
    simp [hne]
  | .unit a b c d :: ps => exact absurd rfl (h a b c d ps)

/-- Behind half a pair a text is read up to its end, and has no content. -/
theorem scanTextFrom_unpaired (ps : List Piece) :
    scanTextFrom acc false (utf8 (spell ps) ++ 0x22 :: rest) = (.text none, rest) := by
  induction hn : ps.length using Nat.strongRecOn generalizing ps acc with
  | ind n ih =>
    subst hn
    match ps with
    | [] => exact scanTextFrom_quote
    | .plain c h :: ps =>
      rw [utf8_spell_cons, scanTextFrom_plainPiece]
      exact ih _ (Nat.lt_succ_self _) ps rfl
    | .escape letter c h :: ps =>
      rw [utf8_spell_cons, scanTextFrom_escapePiece]
      exact ih _ (Nat.lt_succ_self _) ps rfl
    | .unit a b c d :: ps =>
      have hps : ∀ acc, scanTextFrom acc false (utf8 (spell ps) ++ 0x22 :: rest) =
          (.text none, rest) := fun acc => ih _ (Nat.lt_succ_self _) ps rfl
      rw [utf8_spell_cons]
      cases ht : isTrailing (unitOf a b c d) with
      | true => rw [scanTextFrom_trailing ht, hps]
      | false =>
        cases hl : isLeading (unitOf a b c d) with
        | false => rw [scanTextFrom_unitPiece ht hl, hps]
        | true =>
          by_cases hunit : ∃ a' b' c' d' ps', ps = .unit a' b' c' d' :: ps'
          · obtain ⟨a', b', c', d', ps', rfl⟩ := hunit
            have hlen : ps'.length < ps'.length + 1 + 1 := Nat.lt_succ_of_lt (Nat.lt_succ_self _)
            have hps' : ∀ acc, scanTextFrom acc false (utf8 (spell ps') ++ 0x22 :: rest) =
                (.text none, rest) := fun acc => ih _ hlen ps' rfl
            rw [utf8_spell_cons, scanTextFrom_leading_unit ht hl, hps', hps', ite_self]
          · simp only [not_exists] at hunit
            obtain ⟨hne, hcut, hnot⟩ := utf8_spell_alone rest hunit
            rw [scanTextFrom_leading_alone ht hl hne hcut hnot, hps]

/-- Pieces are read as what they stand for. -/
theorem scanTextFrom_pieces (ps : List Piece) : scanTextFrom acc true
    (utf8 (spell ps) ++ 0x22 :: rest) =
      (.text ((content? ps).bind fun cs => textContent true ((utf8 cs).reverse ++ acc)), rest) := by
  have hcons (c : Char) (cs? : Option (List Char)) (acc : List UInt8) :
      (cs?.bind fun cs => textContent true
        ((utf8 cs).reverse ++ ((String.utf8EncodeChar c).reverse ++ acc))) =
      (cs?.map (c :: ·)).bind fun cs => textContent true ((utf8 cs).reverse ++ acc) := by
    cases cs? with
    | none => rfl
    | some cs => simp
  fun_induction content? ps generalizing acc with
  | case1 => exact scanTextFrom_quote
  | case2 c h ps ih => rw [utf8_spell_cons, scanTextFrom_plainPiece, ih, hcons]
  | case3 letter c h ps ih => rw [utf8_spell_cons, scanTextFrom_escapePiece, ih, hcons]
  | case4 a b c d ps ht =>
    rw [utf8_spell_cons, scanTextFrom_trailing ht, scanTextFrom_unpaired]
    rfl
  | case5 a b c d ht hl a' b' c' d' ps ht' ih =>
    rw [utf8_spell_cons, utf8_spell_cons, scanTextFrom_leading_unit (by simpa using ht) hl,
      if_pos ht', ih, hcons]
  | case6 a b c d ht hl a' b' c' d' ps ht' =>
    rw [utf8_spell_cons, utf8_spell_cons, scanTextFrom_leading_unit (by simpa using ht) hl,
      if_neg ht', scanTextFrom_unpaired]
    rfl
  | case7 a b c d ps ht hl hunit =>
    obtain ⟨hne, hcut, hnot⟩ := utf8_spell_alone rest hunit
    rw [utf8_spell_cons, scanTextFrom_leading_alone (by simpa using ht) hl hne hcut hnot,
      scanTextFrom_unpaired]
    rfl
  | case8 a b c d ps ht hl ih =>
    rw [utf8_spell_cons, scanTextFrom_unitPiece (by simpa using ht) (by simpa using hl), ih, hcons]

end Texts

/-! ## Number literals -/

/-- One digit or more. -/
structure Digits where
  chars : List Char
  ne_nil : chars ≠ []
  isDigit : ∀ c ∈ chars, c.isDigit = true

def Digits.values (ds : Digits) : List Nat :=
  digitValues (utf8 ds.chars)

/-- The power of ten behind a number: a letter of either case, a sign or none, and digits. -/
structure Exponent where
  isUpper : Bool
  isNegative? : Option Bool
  digits : Digits

namespace Exponent

/-- What stands behind the letter. -/
def signed (e : Exponent) : List Char :=
  (e.isNegative?.elim [] fun isNegative => [if isNegative then '-' else '+']) ++ e.digits.chars

def chars (e : Exponent) : List Char :=
  (if e.isUpper then 'E' else 'e') :: e.signed

def value (e : Exponent) : Int :=
  if e.isNegative? = some true then -ofDigits e.digits.values else ofDigits e.digits.values

end Exponent

/-- A number as JSON has it: an integer without needless zeros, and maybe a fraction and an
exponent. -/
structure NumberLiteral where
  isNegative : Bool
  whole : Digits
  fraction? : Option Digits
  exponent? : Option Exponent
  canonical : ∀ c cs, whole.chars ≠ '0' :: c :: cs

namespace NumberLiteral

def chars (n : NumberLiteral) : List Char :=
  (if n.isNegative then ['-'] else []) ++ (n.whole.chars ++
    ((n.fraction?.elim [] fun ds => '.' :: ds.chars) ++ n.exponent?.elim [] Exponent.chars))

/-- What the literal denotes when it is kept. -/
def value (n : NumberLiteral) : Number :=
  match n.fraction?, n.exponent? with
  | none, none => integerNumber n.isNegative n.whole.values
  | fraction?, exponent? =>
    inexact (((Significand.ofInteger 0 n.whole.values).addFraction
      (fraction?.elim [] Digits.values)).scale (exponent?.elim 0 Exponent.value))

end NumberLiteral

section Numbers

variable {rest : List UInt8} {s : Significand} {b : UInt8}

namespace Digits

theorem isDigitByte_of_mem (ds : Digits) {b : UInt8} (hb : b ∈ utf8 ds.chars) :
    isDigitByte b = true :=
  isDigitByte_of_mem_utf8 ds.isDigit hb

/-- The first byte of digits is a digit. -/
theorem utf8_eq_cons (ds : Digits) : ∃ b bs, utf8 ds.chars = b :: bs ∧ isDigitByte b = true := by
  obtain ⟨c, cs, hcs⟩ := List.exists_cons_of_ne_nil ds.ne_nil
  obtain ⟨b, hb, hdigit, -⟩ := utf8EncodeChar_digit (ds.isDigit c (hcs ▸ List.mem_cons_self))
  exact ⟨b, utf8 cs, by rw [hcs, utf8_cons, hb, List.singleton_append], hdigit⟩

theorem utf8_ne_nil (ds : Digits) : utf8 ds.chars ≠ [] := by
  obtain ⟨b, bs, hbs, -⟩ := ds.utf8_eq_cons
  rw [hbs]
  exact List.cons_ne_nil b bs

end Digits

/-- Digits without a needless zero have none as bytes. -/
theorem Digits.utf8_ne_zero_cons {ds : Digits} (h : ∀ c cs, ds.chars ≠ '0' :: c :: cs) :
    ∀ b bs, utf8 ds.chars ≠ 0x30 :: b :: bs := by
  intro b bs hbs
  obtain ⟨c, cs, hcs⟩ := List.exists_cons_of_ne_nil ds.ne_nil
  obtain ⟨b₀, hb₀, -, hvalue⟩ := utf8EncodeChar_digit (ds.isDigit c (hcs ▸ List.mem_cons_self))
  rw [hcs, utf8_cons, hb₀, List.singleton_append] at hbs
  obtain ⟨rfl, hrest⟩ := List.cons.inj hbs
  have hc : c = '0' := Char.toNat_inj.mp hvalue.symm
  cases cs with
  | nil => cases hrest
  | cons c' cs => exact h c' cs (hc ▸ hcs)

theorem endsDigits_cons (h : isDigitByte b = false) : EndsDigits (b :: rest) := by
  rintro b' ⟨⟩
  exact h

theorem scanExponentDigits_append (ds : Digits) (isNegative : Bool) (hr : EndsDigits rest) :
    scanExponentDigits s isNegative (utf8 ds.chars ++ rest) = (.number (inexact (s.scale
      (if isNegative then -ofDigits ds.values else ofDigits ds.values))), rest) := by
  rw [scanExponentDigits]
  dsimp only
  rw [hr.takeWhile fun _ => ds.isDigitByte_of_mem, hr.dropWhile fun _ => ds.isDigitByte_of_mem,
    if_neg (by simp [ds.utf8_ne_nil])]
  rfl

theorem scanExponent_append (e : Exponent) (hr : EndsDigits rest) :
    scanExponent s (utf8 e.signed ++ rest) = (.number (inexact (s.scale e.value)), rest) := by
  obtain ⟨isUpper, isNegative?, ds⟩ := e
  match isNegative? with
  | some true => exact scanExponentDigits_append ds true hr
  | some false => exact scanExponentDigits_append ds false hr
  | none =>
    obtain ⟨b, bs, hbs, hdigit⟩ := ds.utf8_eq_cons
    have hdigits : scanExponent s (utf8 ds.chars ++ rest) =
        scanExponentDigits s false (utf8 ds.chars ++ rest) := by
      rw [hbs, List.cons_append, scanExponent]
      · rintro r ⟨⟩
        cases hdigit
      · rintro r ⟨⟩
        cases hdigit
    exact hdigits.trans (scanExponentDigits_append ds false hr)

/-- The bytes of an exponent. -/
theorem utf8_exponent (e : Exponent) :
    utf8 e.chars = (if e.isUpper then 0x45 else 0x65) :: utf8 e.signed := by
  rw [Exponent.chars]
  cases e.isUpper <;> rfl

theorem endsDigits_exponent? (e? : Option Exponent) (hr : EndsDigits rest) :
    EndsDigits (utf8 (e?.elim [] Exponent.chars) ++ rest) := by
  cases e? with
  | none => exact hr
  | some e =>
    rw [Option.elim, utf8_exponent]
    cases e.isUpper <;> exact endsDigits_cons rfl

theorem Significand.scale_zero (s : Significand) : s.scale 0 = s := by
  rw [Significand.scale, Int.add_zero]

theorem scanFraction_append (ds : Digits) (e? : Option Exponent) (hr : EndsNumber rest) :
    scanFraction s (utf8 ds.chars ++ (utf8 (e?.elim [] Exponent.chars) ++ rest)) =
      (.number (inexact ((s.addFraction ds.values).scale (e?.elim 0 Exponent.value))), rest) := by
  have hends := endsDigits_exponent? e? hr.endsDigits
  rw [scanFraction]
  dsimp only
  rw [hends.takeWhile fun _ => ds.isDigitByte_of_mem,
    hends.dropWhile fun _ => ds.isDigitByte_of_mem, if_neg (by simp [ds.utf8_ne_nil])]
  cases e? with
  | none =>
    rw [Option.elim, Option.elim, utf8_nil, List.nil_append, Significand.scale_zero]
    split
    next => exact absurd rfl (hr _ rfl).2.2.1
    next => exact absurd rfl (hr _ rfl).2.2.2
    next => rfl
  | some e =>
    rw [Option.elim, utf8_exponent]
    cases e.isUpper <;> exact scanExponent_append e hr.endsDigits

theorem scanNumber_literal (n : NumberLiteral) (hr : EndsNumber rest) :
    scanNumber n.isNegative (utf8 (n.whole.chars ++
      ((n.fraction?.elim [] fun ds => '.' :: ds.chars) ++ n.exponent?.elim [] Exponent.chars)) ++
        rest) = (.number n.value, rest) := by
  obtain ⟨isNegative, ds, fraction?, exponent?, hcanonical⟩ := n
  have hdigits : ∀ b ∈ utf8 ds.chars, isDigitByte b = true := fun _ => ds.isDigitByte_of_mem
  have hcanonical := Digits.utf8_ne_zero_cons hcanonical
  dsimp only
  rw [utf8_append, List.append_assoc, utf8_append, List.append_assoc]
  match fraction?, exponent? with
  | none, none => exact scanNumber_digits hdigits ds.utf8_ne_nil hcanonical hr
  | none, some e =>
    have hends := endsDigits_exponent? (some e) hr.endsDigits
    refine (scanNumber_append hdigits ds.utf8_ne_nil hcanonical hends).trans ?_
    rw [Option.elim, utf8_exponent]
    cases e.isUpper <;> exact scanExponent_append e hr.endsDigits
  | some f, e? =>
    have hpoint : utf8 ('.' :: f.chars) = 0x2E :: utf8 f.chars := rfl
    rw [Option.elim, hpoint, List.cons_append]
    refine (scanNumber_append hdigits ds.utf8_ne_nil hcanonical (endsDigits_cons rfl)).trans ?_
    refine (scanFraction_append f e? hr).trans ?_
    cases e? <;> rfl

end Numbers

/-! ## Lexemes -/

/-- The characters are some way to write the token. -/
inductive Lexeme : List Char → Token → Prop
  | spell {t : Token} (ht : t.IsSpelled) : Lexeme t.spell.toList t
  | number (n : NumberLiteral) : Lexeme n.chars (.number n.value)
  | text (ps : List Piece) :
      Lexeme ('"' :: Piece.spell ps ++ ['"']) (.text ((Piece.content? ps).map String.ofList))

/-- The characters are lexemes of the tokens, with blanks anywhere between them. -/
inductive TextOf : List Token → List Char → Prop
  | nil : TextOf [] []
  | blank {ts : List Token} {c : Char} {cs : List Char} (hc : c ∈ [' ', '\n', '\r', '\t'])
      (h : TextOf ts cs) : TextOf ts (c :: cs)
  | lexeme {ts : List Token} {t : Token} {cs rest : List Char} (ht : Lexeme cs t)
      (h : TextOf ts rest) : TextOf (t :: ts) (cs ++ rest)

variable {t : Token} {ts : List Token} {cs : List Char} {rest : List UInt8}

/-- Every lexeme is read as its token. -/
theorem Lexeme.readFrom (h : Lexeme cs t) : t.ReadFrom (utf8 cs) := by
  cases h with
  | spell ht => exact readFrom_spell ht
  | number n =>
    intro acc rest hr
    have hscan := scanNumber_literal n (hr rfl)
    unfold NumberLiteral.chars
    cases hn : n.isNegative with
    | true =>
      rw [hn] at hscan
      exact tokensOnto_scan rfl hscan rfl
    | false =>
      rw [hn] at hscan
      obtain ⟨b, bs, hbs, hdigit⟩ := n.whole.utf8_eq_cons
      rw [if_neg Bool.false_ne_true, List.nil_append]
      rw [utf8_append, hbs, List.append_assoc, List.cons_append] at hscan ⊢
      rw [← scan_digit hdigit] at hscan
      exact tokensOnto_scan (isBlankByte_digit hdigit) hscan rfl
  | text ps =>
    intro acc rest _
    have hcontent : ((Piece.content? ps).bind fun cs =>
        textContent true ((utf8 cs).reverse ++ [])) = (Piece.content? ps).map String.ofList := by
      cases Piece.content? ps with
      | none => rfl
      | some cs => rw [Option.bind_some, List.append_nil, textContent_utf8, Option.map_some]
    have hscan := @scanTextFrom_pieces [] rest ps
    rw [hcontent] at hscan
    have hquote : utf8 ('"' :: Piece.spell ps ++ ['"']) ++ rest =
        0x22 :: (utf8 (Piece.spell ps) ++ 0x22 :: rest) := by
      rw [List.cons_append, utf8_cons, utf8_append, List.append_assoc, List.append_assoc]
      rfl
    rw [hquote]
    exact tokensOnto_scan rfl hscan rfl

/-- A lexeme that is no number does not continue one. -/
theorem Lexeme.endsNumber (h : Lexeme cs t) (hn : t.isNumber = false) :
    EndsNumber (utf8 cs ++ rest) := by
  cases h with
  | spell ht => exact endsNumber_spell ht hn
  | number => cases hn
  | text =>
    rintro b ⟨⟩
    decide

namespace TextOf

theorem utf8_blank {c : Char} (hc : c ∈ [' ', '\n', '\r', '\t']) (cs : List Char) :
    ∃ b, utf8 (c :: cs) = b :: utf8 cs ∧ isBlankByte b = true ∧ isDigitByte b = false ∧
      b ≠ 0x2E ∧ b ≠ 0x65 ∧ b ≠ 0x45 := by
  simp only [List.mem_cons, List.not_mem_nil, or_false] at hc
  rcases hc with rfl | rfl | rfl | rfl <;> exact ⟨_, rfl, by decide⟩

/-- Where no number comes first, nothing continues one. -/
theorem endsNumber (h : TextOf ts cs) (hn : ∀ t ∈ ts.head?, t.isNumber = false) :
    EndsNumber (utf8 cs) := by
  cases h with
  | nil => exact endsNumber_nil
  | blank hc =>
    obtain ⟨b, hb, -, hends⟩ := utf8_blank hc _
    rw [hb]
    rintro b' ⟨⟩
    exact hends
  | lexeme ht =>
    rw [utf8_append]
    exact ht.endsNumber (hn _ rfl)

theorem spells (h : TextOf ts cs) (hapart : Apart ts) : Spells ts (utf8 cs) := by
  induction h with
  | nil => exact .nil
  | blank hc h ih =>
    obtain ⟨b, hb, hblank, -⟩ := utf8_blank hc _
    rw [hb]
    exact .blank hblank (ih hapart)
  | @lexeme ts t cs rest ht h ih =>
    rw [utf8_append]
    refine .token ht.readFrom (fun hnum => h.endsNumber fun u hu => ?_) (ih hapart.tail)
    obtain ⟨us, rfl⟩ := List.head?_eq_some_iff.mp hu
    exact hapart.rel hnum

/-- **Every text of tokens is read as these tokens**, if no number stands behind another. -/
theorem tokens_eq (h : TextOf ts cs) (hapart : Apart ts) : tokens (utf8 cs) = ts :=
  (h.spells hapart).tokens_eq

end TextOf

end ChatRelay.Json
