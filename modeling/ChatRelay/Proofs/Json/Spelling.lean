import ChatRelay.Json.Lexer
import ChatRelay.Proofs.Text.Canonical
import Mathlib.Algebra.Group.Int.Defs
import Mathlib.Algebra.Group.Nat.Defs
import Mathlib.Data.List.Chain

/-!
# What is spelled is read back

The tokens of a text that was written are the tokens it was written from. The spelling of each
token is followed byte by byte through the scanner that reads it: the escapes and the UTF-8 bytes
of a text one character at a time (`scanTextFrom_spellChar`), the decimal digits of an integer up
to the first byte that does not continue a number (`scanNumber_digits`).

`Spells ts bs` says that the bytes `bs` spell the tokens `ts`, with blanks anywhere between them;
`Spells.tokens_eq` is the reading direction for all such texts. Messages are written without
blanks, and then two numbers must not stand behind each other: `Compact` is the shape of such
lists of tokens, and `Compact.tokens_render` the round trip for them.
-/

namespace ChatRelay.Json

/-! ## UTF-8 -/

/-- The UTF-8 bytes of a list of characters. -/
def utf8 (cs : List Char) : List UInt8 :=
  cs.flatMap String.utf8EncodeChar

@[simp] theorem utf8_nil : utf8 [] = [] := rfl

@[simp] theorem utf8_cons (c : Char) (cs : List Char) :
    utf8 (c :: cs) = String.utf8EncodeChar c ++ utf8 cs := rfl

@[simp] theorem utf8_append (cs ds : List Char) : utf8 (cs ++ ds) = utf8 cs ++ utf8 ds :=
  List.flatMap_append

theorem toList_loop_byteArray (bytes : ByteArray) (i : Nat) (found : List UInt8) :
    ByteArray.toList.loop bytes i found = found.reverse ++ bytes.data.toList.drop i := by
  fun_induction ByteArray.toList.loop bytes i found with
  | case1 i found hi ih =>
    have hlen : i < bytes.data.toList.length := by simpa using hi
    have hget : bytes.data.toList[i] = bytes.get! i := by simp [ByteArray.get!, hi]
    rw [ih, List.drop_eq_getElem_cons hlen, hget, List.reverse_cons, List.append_assoc,
      List.singleton_append]
  | case2 i found hi =>
    have hlen : bytes.data.toList.length ≤ i := by simpa using Nat.le_of_not_lt hi
    rw [List.drop_eq_nil_of_le hlen, List.append_nil]

theorem toList_toUTF8 (s : String) : s.toUTF8.toList = utf8 s.toList := by
  rw [ByteArray.toList, toList_loop_byteArray, String.toUTF8_eq_toByteArray,
    ← String.utf8Encode_toList]
  simp [List.utf8Encode, utf8]

theorem utf8EncodeChar_of_lt {c : Char} (h : c.toNat < 0x80) :
    String.utf8EncodeChar c = [UInt8.ofNat c.toNat] := by
  have hc : c.val.toNat ≤ 0x7f := Nat.le_of_lt_succ h
  rw [String.utf8EncodeChar.eq_def]
  exact if_pos hc

/-- All bytes of a character beyond ASCII have their high bit set. -/
theorem le_of_mem_utf8EncodeChar {c : Char} (h : 0x80 ≤ c.toNat) {b : UInt8}
    (hb : b ∈ String.utf8EncodeChar c) : 0x80 ≤ b := by
  have hc : ¬ c.val.toNat ≤ 0x7f := Nat.not_le_of_lt h
  simp only [String.utf8EncodeChar, hc, if_false] at hb
  rw [UInt8.le_iff_toNat_le]
  split at hb
  · simp at hb
    rcases hb with rfl | rfl <;> simp <;> omega
  · split at hb <;> simp at hb
    · rcases hb with rfl | rfl | rfl <;> simp <;> omega
    · rcases hb with rfl | rfl | rfl | rfl <;> simp <;> omega

/-! ## Texts -/

section Texts

variable {acc bs rest : List UInt8} {paired : Bool}

theorem scanTextFrom_quote :
    scanTextFrom acc paired (0x22 :: rest) = (.text (textContent paired acc), rest) := by
  simp [scanTextFrom]

theorem scanTextFrom_plain {b : UInt8} (hq : b ≠ 0x22) (he : b ≠ 0x5C) (hc : 0x20 ≤ b) :
    scanTextFrom acc paired (b :: rest) = scanTextFrom (b :: acc) paired rest := by
  have hc' : ¬ b < 0x20 := UInt8.not_lt.mpr hc
  rw [scanTextFrom.eq_def]
  split <;> grind

theorem scanTextFrom_escape {b e : UInt8} (h : simpleEscape? b = some e) :
    scanTextFrom acc paired (0x5C :: b :: rest) = scanTextFrom (e :: acc) paired rest := by
  -- A code-point escape is no simple one, so the patterns that come first do not apply.
  have hu : b ≠ 0x75 := by rintro rfl; cases h
  rw [scanTextFrom.eq_def]
  split <;> grind

theorem scanTextFrom_unit {a b c d : UInt8} {n : Nat} (hu : unit? a b c d = some n)
    (hl : isLeading n = false) (ht : isTrailing n = false) :
    scanTextFrom acc paired (0x5C :: 0x75 :: a :: b :: c :: d :: rest) =
      scanTextFrom (reversedBytes n ++ acc) paired rest := by
  rw [scanTextFrom]
  simp [hu, hl, ht]

theorem scanTextFrom_plain_append (h : ∀ b ∈ bs, b ≠ 0x22 ∧ b ≠ 0x5C ∧ 0x20 ≤ b) :
    scanTextFrom acc paired (bs ++ rest) = scanTextFrom (bs.reverse ++ acc) paired rest := by
  induction bs generalizing acc with
  | nil => rfl
  | cons b bs ih =>
    obtain ⟨⟨hq, he, hc⟩, hbs⟩ := List.forall_mem_cons.mp h
    rw [List.cons_append, scanTextFrom_plain hq he hc, ih hbs, List.reverse_cons,
      List.append_assoc, List.singleton_append]

/-- A character that stands for itself has none of the bytes that mean something else. -/
theorem mem_utf8EncodeChar_plain {c : Char} (hq : c ≠ '"') (he : c ≠ '\\')
    (hc : 0x20 ≤ c.toNat) {b : UInt8} (hb : b ∈ String.utf8EncodeChar c) :
    b ≠ 0x22 ∧ b ≠ 0x5C ∧ 0x20 ≤ b := by
  by_cases h : c.toNat < 0x80
  · rw [utf8EncodeChar_of_lt h, List.mem_singleton] at hb
    have hn : b.toNat = c.toNat := by rw [hb, UInt8.toNat_ofNat']; omega
    refine ⟨?_, ?_, by rw [UInt8.le_iff_toNat_le, hn]; exact hc⟩
    · rintro rfl
      exact hq (Char.toNat_inj.mp hn.symm)
    · rintro rfl
      exact he (Char.toNat_inj.mp hn.symm)
  · have hb' : 0x80 ≤ b := le_of_mem_utf8EncodeChar (Nat.le_of_not_lt h) hb
    grind

/-- The two digits of a control's escape denote the control. -/
theorem unit?_controlEscape {n : Nat} (h : n < 0x20) :
    unit? 0x30 0x30 (UInt8.ofNat (Nat.digitChar (n / 16)).toNat)
      (UInt8.ofNat (Nat.digitChar (n % 16)).toNat) = some n := by
  revert n
  decide

theorem utf8_controlEscape {n : Nat} (h : n < 0x20) : utf8 (controlEscape n).toList =
    [0x5C, 0x75, 0x30, 0x30, UInt8.ofNat (Nat.digitChar (n / 16)).toNat,
      UInt8.ofNat (Nat.digitChar (n % 16)).toNat] := by
  revert n
  decide

/-- Reading the spelling of a character adds the bytes of the character. -/
theorem scanTextFrom_spellChar (c : Char) :
    scanTextFrom acc paired (utf8 (spellChar c).toList ++ rest) =
      scanTextFrom ((String.utf8EncodeChar c).reverse ++ acc) paired rest := by
  unfold spellChar
  split
  iterate 7 exact scanTextFrom_escape rfl
  next hq he _ _ _ _ _ =>
    split
    next hc =>
      rw [utf8_controlEscape hc]
      refine (scanTextFrom_unit (unit?_controlEscape hc) ?_ ?_).trans ?_
      · simp [isLeading]; omega
      · simp [isTrailing]; omega
      · rw [reversedBytes, Char.ofNat_toNat]
        rfl
    next hc =>
      rw [Char.toString, String.toList_singleton, utf8_cons, utf8_nil, List.append_nil]
      exact scanTextFrom_plain_append fun b hb =>
        mem_utf8EncodeChar_plain hq he (Nat.le_of_not_lt hc) hb

theorem scanTextFrom_spellChars (cs : List Char) :
    scanTextFrom acc paired (utf8 (cs.flatMap fun c => (spellChar c).toList) ++ rest) =
      scanTextFrom ((utf8 cs).reverse ++ acc) paired rest := by
  induction cs generalizing acc with
  | nil => rfl
  | cons c cs ih =>
    rw [List.flatMap_cons, utf8_append, List.append_assoc, scanTextFrom_spellChar, ih, utf8_cons,
      List.reverse_append, List.append_assoc]

theorem textContent_utf8 (cs : List Char) :
    textContent true (utf8 cs).reverse = some (String.ofList cs) := by
  have hb : ByteArray.mk (utf8 cs).toArray = (String.ofList cs).toByteArray := by
    rw [String.toByteArray_ofList]
    exact ByteArray.ext List.data_toByteArray.symm
  rw [textContent, if_pos rfl, List.reverse_reverse, hb, String.fromUTF8?,
    dif_pos (String.ofList cs).isValidUTF8]
  rfl

/-- Texts differ in their bytes if they differ. -/
theorem toUTF8_toList_inj {s t : String} (h : s.toUTF8.toList = t.toUTF8.toList) : s = t := by
  rw [toList_toUTF8, toList_toUTF8] at h
  have hcontent := congrArg (fun bs => textContent true bs.reverse) h
  simp only [textContent_utf8, String.ofList_toList] at hcontent
  exact Option.some.inj hcontent

theorem toList_spellText (s : String) :
    (spellText s).toList = '"' :: s.toList.flatMap (fun c => (spellChar c).toList) ++ ['"'] := by
  simp [spellText, List.flatMap_map]

/-- Behind its opening quote a spelled text is read whole. -/
theorem scan_spellText (s : String) :
    scan 0x22 (utf8 (s.toList.flatMap fun c => (spellChar c).toList) ++ 0x22 :: rest) =
      (.text (some s), rest) := by
  rw [scan, scanText, scanTextFrom_spellChars, scanTextFrom_quote, List.append_nil,
    textContent_utf8, String.ofList_toList]

end Texts

/-! ## Integers -/

/-- The byte in front of `bs`, if there is one, does not continue a number. -/
def EndsNumber (bs : List UInt8) : Prop :=
  ∀ b ∈ bs.head?, isDigitByte b = false ∧ b ≠ 0x2E ∧ b ≠ 0x65 ∧ b ≠ 0x45

section Integers

variable {ds rest : List UInt8} {negative : Bool}

/-- The byte in front of `bs`, if there is one, is no digit. -/
def EndsDigits (bs : List UInt8) : Prop :=
  ∀ b ∈ bs.head?, isDigitByte b = false

theorem EndsNumber.endsDigits (hr : EndsNumber rest) : EndsDigits rest :=
  fun b hb => (hr b hb).1

theorem EndsDigits.takeWhile (hr : EndsDigits rest) (hd : ∀ b ∈ ds, isDigitByte b = true) :
    (ds ++ rest).takeWhile isDigitByte = ds := by
  rw [List.takeWhile_append_of_pos hd]
  cases rest with
  | nil => exact List.append_nil ds
  | cons b bs => rw [List.takeWhile_cons_of_neg (by simp [hr b rfl]), List.append_nil]

theorem EndsDigits.dropWhile (hr : EndsDigits rest) (hd : ∀ b ∈ ds, isDigitByte b = true) :
    (ds ++ rest).dropWhile isDigitByte = rest := by
  rw [List.dropWhile_append_of_pos hd]
  cases rest with
  | nil => rfl
  | cons b bs => exact List.dropWhile_cons_of_neg (by simp [hr b rfl])

/-- Digits without a needless zero in front are read up to what follows them, and that decides. -/
theorem scanNumber_append (hd : ∀ b ∈ ds, isDigitByte b = true) (hne : ds ≠ [])
    (hz : ∀ b bs, ds ≠ 0x30 :: b :: bs) :
    EndsDigits rest → scanNumber negative (ds ++ rest) =
      match rest with
      | 0x2E :: r => scanFraction (.ofInteger 0 (digitValues ds)) r
      | 0x65 :: r => scanExponent (.ofInteger 0 (digitValues ds)) r
      | 0x45 :: r => scanExponent (.ofInteger 0 (digitValues ds)) r
      | r => (.number (integerNumber negative (digitValues ds)), r) := by
  intro hr
  rw [scanNumber]
  dsimp only
  rw [hr.takeWhile hd, hr.dropWhile hd]
  split
  · exact absurd rfl hne
  · exact absurd rfl (hz _ _)
  · rfl

/-- Digits alone are read as an integer. -/
theorem scanNumber_digits (hd : ∀ b ∈ ds, isDigitByte b = true) (hne : ds ≠ [])
    (hz : ∀ b bs, ds ≠ 0x30 :: b :: bs) (hr : EndsNumber rest) :
    scanNumber negative (ds ++ rest) =
      (.number (integerNumber negative (digitValues ds)), rest) := by
  rw [scanNumber_append hd hne hz hr.endsDigits]
  split
  next => exact absurd rfl (hr _ rfl).2.1
  next => exact absurd rfl (hr _ rfl).2.2.1
  next => exact absurd rfl (hr _ rfl).2.2.2
  next => rfl

theorem utf8EncodeChar_digit {c : Char} (h : c.isDigit) : ∃ b : UInt8,
    String.utf8EncodeChar c = [b] ∧ isDigitByte b = true ∧ b.toNat = c.toNat := by
  have hc : 48 ≤ c.toNat ∧ c.toNat ≤ 57 := Char.isDigit_iff_toNat.mp h
  have hv : (UInt8.ofNat c.toNat).toNat = c.toNat := by rw [UInt8.toNat_ofNat']; omega
  refine ⟨_, utf8EncodeChar_of_lt (by omega), ?_, hv⟩
  rw [isDigitByte, Bool.and_eq_true, decide_eq_true_iff, decide_eq_true_iff,
    UInt8.le_iff_toNat_le, UInt8.le_iff_toNat_le, hv]
  exact hc

theorem isDigitByte_of_mem_utf8 {cs : List Char} (h : ∀ c ∈ cs, c.isDigit) {b : UInt8}
    (hb : b ∈ utf8 cs) : isDigitByte b = true := by
  obtain ⟨c, hc, hbc⟩ := List.mem_flatMap.mp hb
  obtain ⟨b', he, hd, -⟩ := utf8EncodeChar_digit (h c hc)
  rw [he, List.mem_singleton] at hbc
  exact hbc ▸ hd

theorem digitValues_utf8 {cs : List Char} (h : ∀ c ∈ cs, c.isDigit) :
    digitValues (utf8 cs) = cs.map fun c => c.toNat - '0'.toNat := by
  induction cs with
  | nil => rfl
  | cons c cs ih =>
    obtain ⟨hc, hcs⟩ := List.forall_mem_cons.mp h
    obtain ⟨b, he, -, hv⟩ := utf8EncodeChar_digit hc
    rw [utf8_cons, he, List.singleton_append, digitValues, List.map_cons, hv, List.map_cons,
      ← ih hcs]
    rfl

theorem ofDigits_decimal (n : Nat) : ofDigits (digitValues (utf8 (Nat.toDigits 10 n))) = n := by
  rw [digitValues_utf8 Text.isDigit_of_mem_decimal, ofDigits, List.foldl_map]
  refine Eq.trans ?_ (Nat.ofDigitChars_ten_toDigits (n := n))
  rw [Nat.ofDigitChars_eq_foldl]

/-- The decimal digits of a number as bytes: at least one, and no zero in front of others. -/
theorem utf8_decimal_eq_cons (n : Nat) : ∃ b bs, utf8 (Nat.toDigits 10 n) = b :: bs ∧
    isDigitByte b = true ∧ (b = 0x30 → bs = []) := by
  obtain ⟨d, ds, hd⟩ := List.exists_cons_of_ne_nil (Nat.toDigits_ne_nil (n := n) (b := 10))
  have hdigit : d.isDigit := Text.isDigit_of_mem_decimal d (hd ▸ List.mem_cons_self)
  obtain ⟨b, he, hb, hv⟩ := utf8EncodeChar_digit hdigit
  refine ⟨b, utf8 ds, by rw [hd, utf8_cons, he, List.singleton_append], hb, ?_⟩
  rintro rfl
  have hzero : d = '0' := Char.toNat_inj.mp hv.symm
  by_cases hn : n = 0
  · rw [hn, Nat.toDigits_zero] at hd
    cases hd
    rfl
  · exact absurd (hzero ▸ hd) (Text.decimal_ne_zero_cons hn ds)

theorem scanNumber_decimal (n : Nat) (hr : EndsNumber rest) :
    scanNumber negative (utf8 (Nat.toDigits 10 n) ++ rest) =
      (.number (integerNumber negative (digitValues (utf8 (Nat.toDigits 10 n)))), rest) := by
  obtain ⟨b, bs, hb, -, hz⟩ := utf8_decimal_eq_cons n
  refine scanNumber_digits (fun _ => isDigitByte_of_mem_utf8 Text.isDigit_of_mem_decimal)
    (by simp [hb]) ?_ hr
  rw [hb]
  rintro c cs ⟨⟩
  cases hz rfl

theorem integerNumber_decimal {n : Nat} (h : n < 2 ^ 64) :
    integerNumber false (digitValues (utf8 (Nat.toDigits 10 n))) = .whole n := by
  rw [integerNumber, ofDigits_decimal, if_neg Bool.false_ne_true]
  exact if_pos h

theorem integerNumber_neg_decimal {n : Nat} (hpos : 0 < n) (h : n ≤ 2 ^ 63) :
    integerNumber true (digitValues (utf8 (Nat.toDigits 10 n))) = .whole (-n) := by
  rw [integerNumber, ofDigits_decimal, if_pos rfl]
  refine if_pos (Bool.and_eq_true_iff.mpr ⟨decide_eq_true hpos, decide_eq_true ?_⟩)
  rwa [Nat.one_shiftLeft]

theorem scan_digit {b : UInt8} (hb : isDigitByte b = true) :
    scan b rest = scanNumber false (b :: rest) := by
  unfold scan
  split
  case h_12 => exact if_pos hb
  all_goals cases hb

theorem isBlankByte_digit {b : UInt8} (hb : isDigitByte b = true) : isBlankByte b = false := by
  refine Bool.eq_false_iff.mpr fun h => ?_
  simp only [isBlankByte, Bool.or_eq_true, beq_iff_eq] at h
  rcases h with ((rfl | rfl) | rfl) | rfl <;> cases hb

end Integers

/-! ## Tokens -/

namespace Token

/-- The token denotes something, and its spelling denotes the same. -/
def IsSpelled : Token → Prop
  | number (.whole i) => -2 ^ 63 ≤ i ∧ i < 2 ^ 64
  | number _ | text none | brokenText .. | brokenNumber _ | brokenWord _ | stray => False
  | _ => True

def isNumber : Token → Bool
  | number _ => true
  | _ => false

end Token

section Tokens

variable {acc ts us : List Token} {t : Token} {b : UInt8} {bs rest : List UInt8}

@[simp] theorem tokensOnto_nil (acc : List Token) : tokensOnto acc [] = acc.reverse := by
  rw [tokensOnto.eq_def]

theorem tokensOnto_blank (hb : isBlankByte b = true) :
    tokensOnto acc (b :: rest) = tokensOnto acc rest := by
  rw [tokensOnto, if_pos hb]

theorem tokensOnto_scan (hb : isBlankByte b = false) (hs : scan b bs = (t, rest))
    (ht : t.isBroken = false) : tokensOnto acc (b :: bs) = tokensOnto (t :: acc) rest := by
  rw [tokensOnto, hb, hs]
  simp [ht]

theorem tokensOnto_whole {i : Int} (hl : -2 ^ 63 ≤ i) (hu : i < 2 ^ 64) (hr : EndsNumber rest) :
    tokensOnto acc (utf8 (toString i).toList ++ rest) =
      tokensOnto (.number (.whole i) :: acc) rest := by
  rw [Int.toString_eq_repr, Int.repr_eq_if]
  split
  next h =>
    obtain ⟨b, bs, hb, hd, -⟩ := utf8_decimal_eq_cons i.toNat
    have hs : scan b (bs ++ rest) = (.number (.whole i), rest) := by
      rw [scan_digit hd, ← List.cons_append, ← hb, scanNumber_decimal _ hr,
        integerNumber_decimal (by omega), Int.toNat_of_nonneg h]
    rw [Nat.toList_repr, hb, List.cons_append]
    exact tokensOnto_scan (isBlankByte_digit hd) hs rfl
  next h =>
    have hs : scan 0x2D (utf8 (Nat.toDigits 10 (-i).toNat) ++ rest) =
        (.number (.whole i), rest) := by
      rw [scan, scanNumber_decimal _ hr, integerNumber_neg_decimal (by omega) (by omega),
        Int.toNat_of_nonneg (by omega), Int.neg_neg]
    rw [String.toList_append, utf8_append, Nat.toList_repr, List.append_assoc]
    exact tokensOnto_scan rfl hs rfl

/-- The bytes are read as the token, whatever stands before and behind them; behind a number
something must end it. -/
def Token.ReadFrom (t : Token) (bs : List UInt8) : Prop :=
  ∀ acc rest, (t.isNumber → EndsNumber rest) →
    tokensOnto acc (bs ++ rest) = tokensOnto (t :: acc) rest

/-- The spelling of a token is read as the token. -/
theorem readFrom_spell (ht : t.IsSpelled) : t.ReadFrom (utf8 t.spell.toList) := by
  intro acc rest hr
  match t with
  | .beginObject | .endObject | .beginArray | .endArray | .colon | .comma | .null
  | .bool true | .bool false => exact tokensOnto_scan rfl rfl rfl
  | .number (.whole i) => exact tokensOnto_whole ht.1 ht.2 (hr rfl)
  | .text (some s) =>
    rw [Token.spell, toList_spellText]
    simp only [List.cons_append, utf8_cons, utf8_append, List.append_assoc]
    exact tokensOnto_scan rfl (scan_spellText s) rfl

theorem endsNumber_spell (ht : t.IsSpelled) (hn : t.isNumber = false) :
    EndsNumber (utf8 t.spell.toList ++ rest) := by
  match t with
  | .beginObject | .endObject | .beginArray | .endArray | .colon | .comma | .null
  | .bool true | .bool false => rintro b ⟨⟩; decide
  | .number _ => cases hn
  | .text (some s) =>
    rw [Token.spell, toList_spellText]
    rintro b ⟨⟩
    decide

/-- The bytes spell the tokens, with any blanks between them. -/
inductive Spells : List Token → List UInt8 → Prop
  | nil : Spells [] []
  | blank {ts : List Token} {b : UInt8} {bs : List UInt8} :
      isBlankByte b = true → Spells ts bs → Spells ts (b :: bs)
  | token {ts : List Token} {t : Token} {bs rest : List UInt8} :
      t.ReadFrom bs → (t.isNumber → EndsNumber rest) → Spells ts rest →
        Spells (t :: ts) (bs ++ rest)

/-- The tokens that have been read before stay in front. -/
theorem tokensOnto_append (acc first : List Token) (bs : List UInt8) :
    tokensOnto (acc ++ first) bs = first.reverse ++ tokensOnto acc bs := by
  fun_induction tokensOnto acc bs with
  | case1 acc => rw [tokensOnto_nil, List.reverse_append]
  | case2 acc b rest hb ih => rw [tokensOnto_blank hb, ih]
  | case3 acc b rest hb ht =>
    rw [tokensOnto, if_neg hb, if_pos ht, ← List.cons_append, List.reverse_append]
  | case4 acc b rest hb ht ih => rw [tokensOnto, if_neg hb, if_neg ht, ← List.cons_append, ih]

theorem endsNumber_nil : EndsNumber [] := fun _ hb => nomatch hb

/-- A token is not read from nothing. -/
theorem Token.ReadFrom.ne_nil (h : t.ReadFrom bs) : bs ≠ [] := by
  rintro rfl
  have hread := h [] [] fun _ => endsNumber_nil
  rw [List.append_nil, tokensOnto_nil, tokensOnto_nil] at hread
  cases hread

theorem EndsNumber.append {bs' : List UInt8} (h : EndsNumber bs) (hne : bs ≠ []) :
    EndsNumber (bs ++ bs') := by
  intro b hb
  rw [List.head?_append_of_ne_nil bs hne] at hb
  exact h b hb

/-- What follows a text that spells some tokens is read behind these tokens. -/
theorem Spells.tokensOnto_append (h : Spells ts bs)
    (hr : ∀ t ∈ ts.getLast?, t.isNumber → EndsNumber rest) (acc : List Token) :
    tokensOnto acc (bs ++ rest) = tokensOnto (ts.reverse ++ acc) rest := by
  induction h generalizing acc with
  | nil => rfl
  | blank hb _ ih => rw [List.cons_append, tokensOnto_blank hb, ih hr]
  | @token ts t bs bs' ht hn h ih =>
    have hlast : ∀ u ∈ ts.getLast?, u.isNumber → EndsNumber rest := fun u hu =>
      hr u (by rw [List.getLast?_cons, Option.mem_def.mp hu, Option.getD_some]; rfl)
    have hends : t.isNumber → EndsNumber (bs' ++ rest) := by
      intro hnum
      cases h with
      | nil => exact hr t rfl hnum
      | blank => exact (hn hnum).append (List.cons_ne_nil _ _)
      | token hu => exact (hn hnum).append (List.append_ne_nil_of_left_ne_nil hu.ne_nil _)
    rw [List.append_assoc, ht acc _ hends, ih hlast, List.reverse_cons,
      List.append_assoc, List.singleton_append]

theorem Spells.tokens_append (h : Spells ts bs)
    (hr : ∀ t ∈ ts.getLast?, t.isNumber → EndsNumber rest) :
    tokens (bs ++ rest) = ts ++ tokens rest := by
  have happend := Json.tokensOnto_append [] ts.reverse rest
  rw [List.nil_append, List.reverse_reverse] at happend
  rw [tokens, h.tokensOnto_append hr [], List.append_nil, happend, tokens]

/-- Every text that spells some tokens is read as these tokens. -/
theorem Spells.tokens_eq (h : Spells ts bs) : tokens bs = ts := by
  have htokens := h.tokens_append fun _ _ _ => endsNumber_nil
  rwa [List.append_nil, tokens, tokens, tokensOnto_nil, List.reverse_nil, List.append_nil]
    at htokens

/-! ## Texts without blanks -/

/-- No number stands right behind another. -/
abbrev Apart (ts : List Token) : Prop :=
  ts.IsChain fun t u => t.isNumber → u.isNumber = false

/-- In front of anything there may stand a token that is no number. -/
theorem Apart.cons (hn : t.isNumber = false) (h : Apart ts) : Apart (t :: ts) :=
  List.IsChain.cons h fun _ _ h' => absurd h' (by simp [hn])

theorem Apart.append (ht : Apart ts) (hu : Apart us) (h : ∀ u ∈ us.head?, u.isNumber = false) :
    Apart (ts ++ us) :=
  List.IsChain.append ht hu fun _ _ u hu' _ => h u hu'

/-- Tokens that keep apart without blanks. -/
structure Compact (ts : List Token) : Prop where
  spelled : ∀ t ∈ ts, t.IsSpelled
  apart : Apart ts

theorem utf8_render_cons (t : Token) (ts : List Token) :
    utf8 (render (t :: ts)).toList = utf8 t.spell.toList ++ utf8 (render ts).toList := by
  simp [render]

namespace Compact

theorem spells (h : Compact ts) : Spells ts (utf8 (render ts).toList) := by
  induction ts with
  | nil => exact .nil
  | cons t ts ih =>
    obtain ⟨ht, hts⟩ := List.forall_mem_cons.mp h.spelled
    rw [utf8_render_cons]
    refine .token (readFrom_spell ht) (fun hn => ?_) (ih ⟨hts, h.apart.tail⟩)
    cases ts with
    | nil => exact endsNumber_nil
    | cons u us =>
      rw [utf8_render_cons]
      exact endsNumber_spell (hts u List.mem_cons_self) (h.apart.rel hn)

/-- A text that was written is read as the tokens it was written from. -/
theorem tokens_render (h : Compact ts) : tokens (render ts).toUTF8.toList = ts := by
  rw [toList_toUTF8]
  exact h.spells.tokens_eq

theorem singleton (ht : t.IsSpelled) : Compact [t] :=
  ⟨List.forall_mem_singleton.mpr ht, .singleton t⟩

theorem append (ht : Compact ts) (hu : Compact us) (h : ∀ u ∈ us.head?, u.isNumber = false) :
    Compact (ts ++ us) where
  spelled := List.forall_mem_append.mpr ⟨ht.spelled, hu.spelled⟩
  apart := ht.apart.append hu.apart h

theorem tail (h : Compact ts) : Compact ts.tail where
  spelled t ht := h.spelled t (List.mem_of_mem_tail ht)
  apart := h.apart.tail

theorem cons (ht : t.IsSpelled) (hn : t.isNumber = false) (h : Compact ts) :
    Compact (t :: ts) where
  spelled := List.forall_mem_cons.mpr ⟨ht, h.spelled⟩
  apart := h.apart.cons hn

end Compact

end Tokens

end ChatRelay.Json
