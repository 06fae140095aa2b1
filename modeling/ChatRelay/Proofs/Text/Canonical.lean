import ChatRelay.Proofs.Text.Grammar

/-!
# Canonical numerals

Of all numerals that denote the same integer one is canonical: it has no plus sign, no zero in front
of another digit, and no minus sign in front of zero. It is the one that is written
(`isCanonical_iff`), while the reader takes the others as well.

The reason lies with the natural numbers. Digits that follow a positive number continue its digits
(`decimal_append`), so a numeral whose first digit is not zero consists of the digits of its value.
-/

namespace ChatRelay.Text

variable {cs : List Char} {c : Char} {n : Nat} {i : Int}

/-! ## The digits of a number -/

theorem isDigit_of_mem_decimal : ∀ c ∈ Nat.toDigits 10 n, c.isDigit := fun _ =>
  Nat.isDigit_of_mem_toDigits (by decide) (by decide)

theorem decimal_ne_zero_cons (h : n ≠ 0) (cs : List Char) : Nat.toDigits 10 n ≠ '0' :: cs := by
  induction n using Nat.strongRecOn generalizing cs with
  | ind n ih =>
    rw [Nat.toDigits_eq_if (by decide)]
    split
    · simp [h]
    next hn =>
      obtain ⟨d, ds, hd⟩ := List.exists_cons_of_ne_nil (Nat.toDigits_ne_nil (n := n / 10) (b := 10))
      rw [hd, List.cons_append]
      rintro ⟨⟩
      exact ih (n / 10) (by omega) (by omega) _ hd

theorem isNumeral_decimal (n : Nat) : IsNumeral (Nat.toDigits 10 n) n where
  ne_nil := Nat.toDigits_ne_nil
  digits := isDigit_of_mem_decimal
  value := Nat.ofDigitChars_ten_toDigits

theorem decimal_of_isDigit (h : c.isDigit = true) :
    Nat.toDigits 10 (c.toNat - '0'.toNat) = [c] := by
  have hrange : 48 ≤ c.toNat ∧ c.toNat ≤ 57 := Char.isDigit_iff_toNat.mp h
  have hzero : '0'.toNat = 48 := rfl
  have hlt : c.toNat - '0'.toNat < 10 := by omega
  have hchar : (c.toNat - '0'.toNat).digitChar = c := by
    rw [← Char.toNat_inj, Nat.toNat_digitChar_of_lt_ten hlt]
    omega
  rw [Nat.toDigits_of_lt_base hlt, hchar]

/-- Digits behind a positive number continue it. -/
theorem decimal_append (hn : 0 < n) (hcs : ∀ c ∈ cs, c.isDigit = true) :
    Nat.toDigits 10 n ++ cs = Nat.toDigits 10 (Nat.ofDigitChars 10 cs n) := by
  induction cs generalizing n with
  | nil => rw [List.append_nil, Nat.ofDigitChars_nil]
  | cons c cs ih =>
    obtain ⟨hc, hcs⟩ := List.forall_mem_cons.mp hcs
    have hrange : 48 ≤ c.toNat ∧ c.toNat ≤ 57 := Char.isDigit_iff_toNat.mp hc
    have hzero : '0'.toNat = 48 := rfl
    calc Nat.toDigits 10 n ++ c :: cs
        = Nat.toDigits 10 n ++ Nat.toDigits 10 (c.toNat - '0'.toNat) ++ cs := by
          rw [decimal_of_isDigit hc, List.append_assoc, List.singleton_append]
      _ = Nat.toDigits 10 (10 * n + (c.toNat - '0'.toNat)) ++ cs := by
          rw [Nat.toDigits_append_toDigits (by decide) hn (by omega)]
      _ = Nat.toDigits 10 (Nat.ofDigitChars 10 (c :: cs) n) := by
          rw [ih (by omega) hcs, Nat.ofDigitChars_cons]

/-! ## The numeral that is written -/

/-- A numeral with no zero in front of another digit. -/
structure IsShortNumeral (cs : List Char) (n : Nat) : Prop extends IsNumeral cs n where
  leading : ∀ ds, cs = '0' :: ds → ds = []

/-- The canonical numeral of an integer. -/
inductive IsCanonical : List Char → Int → Prop
  | natural {cs : List Char} {n : Nat} (h : IsShortNumeral cs n) : IsCanonical cs n
  | negative {cs : List Char} {n : Nat} (h : IsShortNumeral cs n) (hn : n ≠ 0) :
      IsCanonical ('-' :: cs) (-n)

theorem isShortNumeral_iff : IsShortNumeral cs n ↔ cs = Nat.toDigits 10 n := by
  constructor
  · rintro ⟨⟨hne, hdigits, hvalue⟩, hleading⟩
    obtain ⟨c, ds, rfl⟩ := List.exists_cons_of_ne_nil hne
    obtain ⟨hc, hds⟩ := List.forall_mem_cons.mp hdigits
    rw [Nat.ofDigitChars_cons, Nat.mul_zero, Nat.zero_add] at hvalue
    by_cases hzero : c = '0'
    · subst hzero
      obtain rfl := hleading ds rfl
      rw [← hvalue]
      rfl
    · have hrange : 48 ≤ c.toNat ∧ c.toNat ≤ 57 := Char.isDigit_iff_toNat.mp hc
      have hne : c.toNat ≠ '0'.toNat := fun h => hzero (Char.toNat_inj.mp h)
      have hnat : '0'.toNat = 48 := rfl
      rw [← hvalue, ← decimal_append (by omega) hds, decimal_of_isDigit hc, List.singleton_append]
  · rintro rfl
    refine ⟨isNumeral_decimal n, fun ds h => ?_⟩
    by_cases hn : n = 0
    · rw [hn, Nat.toDigits_zero] at h
      exact (List.cons.inj h).2.symm
    · exact absurd h (decimal_ne_zero_cons hn ds)

/-- Every integer has one canonical numeral, and this is how it is written. -/
theorem isCanonical_iff : IsCanonical cs i ↔ cs = (toString i).toList := by
  have hminus (n : Nat) : ("-" ++ n.repr).toList = '-' :: Nat.toDigits 10 n := by
    rw [String.toList_append, Nat.toList_repr]
    rfl
  rw [Int.toString_eq_repr, Int.repr_eq_if]
  constructor
  · rintro (h | ⟨h, hn⟩)
    · rw [if_pos (Int.natCast_nonneg _), Int.toNat_natCast, Nat.toList_repr]
      exact isShortNumeral_iff.mp h
    · rw [if_neg (by omega), hminus, Int.neg_neg, Int.toNat_natCast, ← isShortNumeral_iff.mp h]
  · rintro rfl
    split
    next hi =>
      have h := IsCanonical.natural (isShortNumeral_iff.mpr (Eq.refl (Nat.toDigits 10 i.toNat)))
      rwa [Int.toNat_of_nonneg hi, ← Nat.toList_repr] at h
    next hi =>
      have h := IsCanonical.negative
        (isShortNumeral_iff.mpr (Eq.refl (Nat.toDigits 10 (-i).toNat))) (by omega)
      rwa [Int.toNat_of_nonneg (by omega), Int.neg_neg, ← hminus] at h

/-- A canonical numeral is a numeral. -/
theorem IsCanonical.isSignedNumeral (h : IsCanonical cs i) : IsSignedNumeral cs i := by
  cases h with
  | natural h => exact .plain h.toIsNumeral
  | negative h => exact .minus h.toIsNumeral

end ChatRelay.Text
