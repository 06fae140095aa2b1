import ChatRelay.Text.Blank
import ChatRelay.Text.Decimal
import ChatRelay.Text.Split
import Mathlib.Data.List.Basic
import Mathlib.Data.List.TakeWhile
import Mathlib.Tactic.SplitIfs

/-!
# What texts are made of

Trimming, splitting and reading numbers are programs. Here stands what they decide about a text,
without saying how: a text is a core with blanks around it, or blanks alone (`trim_eq_iff`,
`trim_eq_empty_iff`); its pieces are those of `List.splitOn` (`splitChars_eq_splitOn`); and a
numeral is one or more digits, with the number that they denote (`digits?_eq_some_iff`).
-/

namespace ChatRelay.Text

/-! ## Blanks around a text -/

/-- Nothing but blanks. -/
def IsBlankText (s : String) : Prop :=
  ∀ c ∈ s.toList, isBlank c = true

/-- `s` is `core` with blanks around it. -/
def IsPadded (core s : String) : Prop :=
  ∃ before behind, IsBlankText before ∧ IsBlankText behind ∧ s = before ++ core ++ behind

/-- The text begins and ends with something else than a blank. -/
structure IsCore (s : String) : Prop where
  ne_empty : s ≠ ""
  first : ∀ c ∈ s.toList.head?, isBlank c = false
  last : ∀ c ∈ s.toList.getLast?, isBlank c = false

variable {s t core : String} {cs before behind : List Char}

instance : Decidable (IsBlankText s) := List.decidableBAll (fun c => isBlank c = true) s.toList

/-- Blanks around a text do not change what trimming leaves of it. -/
theorem trimChars_append_append (hbefore : ∀ c ∈ before, isBlank c = true)
    (hbehind : ∀ c ∈ behind, isBlank c = true) :
    trimChars (before ++ cs ++ behind) = trimChars cs := by
  have hback : ∀ c ∈ behind.reverse, isBlank c = true := by simpa using hbehind
  rw [trimChars, trimChars, List.append_assoc, List.dropWhile_append_of_pos hbefore,
    List.dropWhile_append]
  split_ifs with hcs
  · rw [List.isEmpty_iff] at hcs
    rw [hcs, List.dropWhile_eq_nil_iff.mpr hbehind]
  · rw [List.reverse_append, List.dropWhile_append_of_pos hback]

/-- A text is what trimming leaves of it, with blanks around it. -/
theorem exists_append_trimChars (cs : List Char) : ∃ before behind,
    (∀ c ∈ before, isBlank c = true) ∧ (∀ c ∈ behind, isBlank c = true) ∧
      cs.dropWhile isBlank = trimChars cs ++ behind ∧ cs = before ++ trimChars cs ++ behind := by
  have htake (ds : List Char) : ∀ c ∈ ds.takeWhile isBlank, isBlank c = true :=
    fun _ hc => List.all_eq_true.mp List.all_takeWhile _ hc
  have hbehind : cs.dropWhile isBlank =
      trimChars cs ++ ((cs.dropWhile isBlank).reverse.takeWhile isBlank).reverse := by
    rw [trimChars, ← List.reverse_append, List.takeWhile_append_dropWhile, List.reverse_reverse]
  refine ⟨cs.takeWhile isBlank, _, htake cs, fun c hc => htake _ c (List.mem_reverse.mp hc),
    hbehind, ?_⟩
  rw [List.append_assoc, ← hbehind, List.takeWhile_append_dropWhile]

theorem isBlank_of_mem_head?_dropWhile {c : Char} (h : c ∈ (cs.dropWhile isBlank).head?) :
    isBlank c = false := by
  have hnot := List.head?_dropWhile_not isBlank cs
  rwa [Option.mem_def.mp h] at hnot

/-- What trimming leaves ends with something else than a blank, and begins so. -/
theorem isCore_trim (h : trim s ≠ "") : IsCore (trim s) := by
  have hne : trimChars s.toList ≠ [] := fun hnil => h (congrArg String.ofList hnil)
  refine ⟨h, fun c hc => ?_, fun c hc => ?_⟩ <;> rw [trim, String.toList_ofList] at hc
  · obtain ⟨_, behind, -, -, hdrop, -⟩ := exists_append_trimChars s.toList
    have hmem : c ∈ (s.toList.dropWhile isBlank).head? := by
      rwa [hdrop, List.head?_append_of_ne_nil _ hne]
    exact isBlank_of_mem_head?_dropWhile hmem
  · rw [trimChars, List.getLast?_reverse] at hc
    exact isBlank_of_mem_head?_dropWhile hc

theorem IsCore.trim_eq (h : IsCore s) : trim s = s := by
  have hdrop : ∀ ds : List Char, (∀ c ∈ ds.head?, isBlank c = false) →
      ds.dropWhile isBlank = ds := by
    rintro (_ | ⟨c, ds⟩) hfirst
    · rfl
    · exact List.dropWhile_cons_of_neg (by simp [hfirst c rfl])
  rw [trim, trimChars, hdrop _ h.first, hdrop, List.reverse_reverse, String.ofList_toList]
  rw [List.head?_reverse]
  exact h.last

theorem IsPadded.trim_eq (h : IsPadded core s) : trim s = trim core := by
  obtain ⟨before, behind, hbefore, hbehind, rfl⟩ := h
  rw [trim, trim, String.toList_append, String.toList_append,
    trimChars_append_append hbefore hbehind]

theorem isPadded_self (s : String) : IsPadded s s :=
  ⟨"", "", by decide, by decide, by rw [String.empty_append, String.append_empty]⟩

/-- Every text is padded, around what trimming leaves of it. -/
theorem isPadded_trim (s : String) : IsPadded (trim s) s := by
  obtain ⟨before, behind, hbefore, hbehind, -, hs⟩ := exists_append_trimChars s.toList
  refine ⟨String.ofList before, String.ofList behind, ?_, ?_, ?_⟩
  · rwa [IsBlankText, String.toList_ofList]
  · rwa [IsBlankText, String.toList_ofList]
  · rw [trim, ← String.ofList_append, ← String.ofList_append, ← hs, String.ofList_toList]

theorem trim_eq_empty_iff : trim s = "" ↔ IsBlankText s := by
  constructor
  · intro h c hc
    obtain ⟨before, behind, hbefore, hbehind, hs⟩ := isPadded_trim s
    rw [h] at hs
    simp only [hs, String.append_empty, String.toList_append, List.mem_append] at hc
    exact hc.elim (hbefore c) (hbehind c)
  · intro h
    have hdrop : s.toList.dropWhile isBlank = [] := List.dropWhile_eq_nil_iff.mpr h
    rw [trim, trimChars, hdrop]
    rfl

/-- Trimming leaves the core of a text. -/
theorem trim_eq_iff (ht : t ≠ "") : trim s = t ↔ IsCore t ∧ IsPadded t s := by
  constructor
  · rintro rfl
    exact ⟨isCore_trim ht, isPadded_trim s⟩
  · rintro ⟨hcore, hpadded⟩
    rw [hpadded.trim_eq, hcore.trim_eq]

/-! ## Pieces -/

theorem splitChars_eq_splitOn (sep : Char) (cs : List Char) :
    splitChars sep cs = cs.splitOn sep := by
  induction cs with
  | nil => rfl
  | cons c cs ih =>
    rw [splitChars, ih, List.splitOn_cons_eq_if_modifyHead]
    obtain ⟨piece, pieces, hpieces⟩ := List.exists_cons_of_ne_nil (List.splitOn_ne_nil sep cs)
    rw [hpieces]
    by_cases hc : c = sep
    · simp [hc]
    · simp [hc]

/-- A piece does not hold the separator. -/
theorem notMem_of_mem_splitOn {sep : Char} {piece : List Char} (h : piece ∈ cs.splitOn sep) :
    sep ∉ piece := by
  induction cs generalizing piece with
  | nil => simp_all
  | cons c cs ih =>
    rw [List.splitOn_cons_eq_if_modifyHead] at h
    obtain ⟨first, pieces, hpieces⟩ := List.exists_cons_of_ne_nil (List.splitOn_ne_nil sep cs)
    rw [hpieces] at h ih
    split_ifs at h with hc
    · obtain rfl | h := List.mem_cons.mp h
      · exact List.not_mem_nil
      · exact ih h
    · obtain rfl | h := List.mem_cons.mp h
      · rw [List.mem_cons, not_or]
        exact ⟨fun hsep => hc (beq_iff_eq.mpr hsep.symm), ih List.mem_cons_self⟩
      · exact ih (List.mem_cons_of_mem first h)

/-- A text is cut in two at its first separator. -/
theorem splitOnce?_eq_some_iff {sep : Char} :
    splitOnce? sep cs = some (before, behind) ↔ sep ∉ before ∧ cs = before ++ sep :: behind := by
  induction cs generalizing before with
  | nil => simp [splitOnce?]
  | cons c cs ih =>
    rw [splitOnce?]
    split_ifs with hc
    · subst hc
      cases before with
      | nil => simp [eq_comm]
      | cons b before => simp +contextual [eq_comm]
    · cases before with
      | nil => simp [hc]
      | cons b before =>
        rw [Option.map_eq_some_iff]
        constructor
        · rintro ⟨⟨_, _⟩, h, hcons⟩
          cases hcons
          obtain ⟨hnot, rfl⟩ := ih.mp h
          exact ⟨by simp [hnot, Ne.symm hc], rfl⟩
        · rintro ⟨hnot, hcs⟩
          cases hcs
          exact ⟨_, ih.mpr ⟨fun h => hnot (List.mem_cons_of_mem _ h), rfl⟩, rfl⟩

/-! ## Numerals -/

/-- One or more digits, which denote `n`. -/
structure IsNumeral (cs : List Char) (n : Nat) : Prop where
  ne_nil : cs ≠ []
  digits : ∀ c ∈ cs, c.isDigit = true
  value : Nat.ofDigitChars 10 cs 0 = n

/-- A numeral with one sign or none, which denotes `i`. -/
inductive IsSignedNumeral : List Char → Int → Prop
  | plain {cs : List Char} {n : Nat} (h : IsNumeral cs n) : IsSignedNumeral cs n
  | plus {cs : List Char} {n : Nat} (h : IsNumeral cs n) : IsSignedNumeral ('+' :: cs) n
  | minus {cs : List Char} {n : Nat} (h : IsNumeral cs n) : IsSignedNumeral ('-' :: cs) (-n)

/-- No digit is blank. -/
theorem isBlank_of_isDigit {c : Char} (h : c.isDigit = true) : isBlank c = false := by
  have hrange : 48 ≤ c.toNat ∧ c.toNat ≤ 57 := Char.isDigit_iff_toNat.mp h
  simp only [isBlank, Bool.or_eq_false_iff, Bool.and_eq_false_iff, decide_eq_false_iff_not,
    beq_eq_false_iff_ne]
  omega

theorem IsSignedNumeral.isBlank_of_mem {i : Int} (h : IsSignedNumeral cs i) {c : Char}
    (hc : c ∈ cs) : isBlank c = false := by
  cases h with
  | plain h => exact isBlank_of_isDigit (h.digits c hc)
  | plus h | minus h =>
    obtain rfl | hc := List.mem_cons.mp hc
    · rfl
    · exact isBlank_of_isDigit (h.digits c hc)

/-- Nothing is trimmed from a numeral. -/
theorem IsSignedNumeral.isCore {i : Int} (h : IsSignedNumeral s.toList i) : IsCore s where
  ne_empty := by
    rintro rfl
    cases h with
    | plain h => exact h.ne_nil rfl
  first _ hc := h.isBlank_of_mem (List.mem_of_mem_head? hc)
  last _ hc := h.isBlank_of_mem (List.mem_of_mem_getLast? hc)

namespace Decimal

theorem digit?_eq_some_iff {c : Char} {d : Nat} :
    digit? c = some d ↔ c.isDigit = true ∧ c.toNat - '0'.toNat = d := by
  have hdigit : ('0' ≤ c ∧ c ≤ '9') ↔ c.isDigit = true := by
    rw [Char.isDigit_iff_toNat]
    rfl
  rw [digit?, ← hdigit]
  split_ifs with h <;> simp [h]

theorem digitsFrom?_eq_some_iff {acc n : Nat} : digitsFrom? acc cs = some n ↔
    (∀ c ∈ cs, c.isDigit = true) ∧ Nat.ofDigitChars 10 cs acc = n := by
  induction cs generalizing acc with
  | nil => simp [digitsFrom?]
  | cons c cs ih =>
    rw [digitsFrom?, Option.bind_eq_some_iff, List.forall_mem_cons, Nat.ofDigitChars_cons]
    simp only [digit?_eq_some_iff, ih, and_assoc, exists_and_left, exists_eq_left']

theorem digits?_eq_some_iff {n : Nat} : digits? cs = some n ↔ IsNumeral cs n := by
  constructor
  · intro h
    cases cs with
    | nil => cases h
    | cons c cs =>
      obtain ⟨hdigits, hvalue⟩ := digitsFrom?_eq_some_iff.mp h
      exact ⟨List.cons_ne_nil c cs, hdigits, hvalue⟩
  · rintro ⟨hne, hdigits, hvalue⟩
    obtain ⟨c, cs, rfl⟩ := List.exists_cons_of_ne_nil hne
    exact digitsFrom?_eq_some_iff.mpr ⟨hdigits, hvalue⟩

/-- A numeral may have a plus sign in front, if there is no other sign. -/
theorem unsigned?_eq_some_iff {n : Nat} : unsigned? cs = some n ↔
    IsNumeral cs n ∨ ∃ ds, cs = '+' :: ds ∧ IsNumeral ds n := by
  rw [unsigned?.eq_def]
  split
  · next ds =>
    have hplus : ¬ IsNumeral ('+' :: ds) n := fun h =>
      absurd (h.digits '+' List.mem_cons_self) (by decide)
    simp [digits?_eq_some_iff, hplus]
  · next hplus =>
    have hnot : ¬ ∃ ds, cs = '+' :: ds ∧ IsNumeral ds n := fun ⟨ds, h, _⟩ => hplus ds h
    simp only [digits?_eq_some_iff, hnot, or_false]

theorem signed?_eq_some_iff {i : Int} : signed? cs = some i ↔ IsSignedNumeral cs i := by
  have hsign {c : Char} {cs : List Char} {n : Nat} (h : IsNumeral (c :: cs) n) :
      c ≠ '+' ∧ c ≠ '-' := by
    have hdigit := h.digits c List.mem_cons_self
    constructor <;> rintro rfl <;> cases hdigit
  constructor
  · intro h
    rw [signed?.eq_def] at h
    split at h <;> obtain ⟨n, hn, rfl⟩ := Option.map_eq_some_iff.mp h
    · exact .plus (digits?_eq_some_iff.mp hn)
    · obtain ⟨n, hdigits, ⟨⟩⟩ := Option.bind_eq_some_iff.mp hn
      exact .minus (digits?_eq_some_iff.mp hdigits)
    · exact .plain (digits?_eq_some_iff.mp hn)
  · rintro (h | h | h)
    · obtain ⟨c, cs, rfl⟩ := List.exists_cons_of_ne_nil h.ne_nil
      obtain ⟨hplus, hminus⟩ := hsign h
      rw [signed?.eq_def]
      split
      next heq => exact absurd (List.cons.inj heq).1 hplus
      next heq => exact absurd (List.cons.inj heq).1 hminus
      next => rw [digits?_eq_some_iff.mpr h, Option.map_some]; rfl
    · rw [signed?, digits?_eq_some_iff.mpr h]
      rfl
    · rw [signed?, digits?_eq_some_iff.mpr h]
      rfl

/-- The 64-bit integers are read from the numerals in their range. -/
theorem int64?_eq_some_iff {n : Int64} : int64? cs = some n ↔ IsSignedNumeral cs n.toInt := by
  rw [int64?, Option.bind_eq_some_iff]
  constructor
  · rintro ⟨i, hi, hn⟩
    split_ifs at hn with hrange
    cases hn
    rw [Int64.toInt_ofInt_of_le hrange.1 (Int.lt_of_le_of_lt hrange.2 (by decide))]
    exact signed?_eq_some_iff.mp hi
  · intro h
    refine ⟨n.toInt, signed?_eq_some_iff.mpr h, ?_⟩
    rw [if_pos ⟨n.minValue_le_toInt, n.toInt_le⟩, Int64.ofInt_toInt]

end Decimal

end ChatRelay.Text
