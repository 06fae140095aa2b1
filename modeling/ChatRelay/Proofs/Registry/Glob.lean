import ChatRelay.Proofs.Json.Spelling
import Mathlib.Data.List.Infix

/-!
# Patterns of keys

A server fits keys to a pattern byte by byte. A star stands for any bytes and a question mark for
any one; brackets enclose a class, and a backslash takes its meaning from the byte behind it. All
other bytes stand for themselves. A pattern is read once, into parts (`Glob.parts`), and fitted
along the parts (`Glob.fitsAll`).

A text without special characters and with a star behind it is fitted by the keys that begin with
the text (`fits_append_star`). Of other texts this cannot be said.
-/

namespace ChatRelay.Redis

open Json (utf8)

namespace Glob

/-- The bytes in some ranges, or those in none of them. A range is given by its ends, in either
order. -/
structure ByteClass where
  isNegated : Bool
  ranges : List (UInt8 × UInt8)

namespace ByteClass

def has (c : ByteClass) (b : UInt8) : Bool :=
  (c.ranges.any fun (x, y) => (x ≤ b && b ≤ y) || (y ≤ b && b ≤ x)) != c.isNegated

def all : ByteClass :=
  ⟨true, []⟩

def only (b : UInt8) : ByteClass :=
  ⟨false, [(b, b)]⟩

def add (c : ByteClass) (x y : UInt8) : ByteClass :=
  { c with ranges := (x, y) :: c.ranges }

@[simp] theorem has_only {b b' : UInt8} : (only b).has b' = true ↔ b' = b := by
  simp only [has, only, List.any_cons, List.any_nil, Bool.or_false, bne_iff_ne, ne_eq,
    Bool.not_eq_false, Bool.or_eq_true, Bool.and_eq_true, decide_eq_true_eq]
  refine ⟨?_, fun h => .inl (h ▸ ⟨UInt8.le_refl b', UInt8.le_refl b'⟩)⟩
  rintro (⟨hle, hge⟩ | ⟨hle, hge⟩) <;> exact UInt8.le_antisymm hge hle

end ByteClass

/-- A part of a pattern. -/
inductive Part where
  | any
  | one (c : ByteClass)

/-- The parts of a pattern, from within a class if one was begun. What is not closed at the end of
the pattern is closed there. -/
def parts : Option ByteClass → List UInt8 → List Part
  | none, [] => []
  | none, 0x2a :: bs => .any :: parts none bs
  | none, 0x3f :: bs => .one .all :: parts none bs
  | none, 0x5b :: 0x5e :: bs => parts (some ⟨true, []⟩) bs
  | none, 0x5b :: bs => parts (some ⟨false, []⟩) bs
  | none, 0x5c :: b :: bs => .one (.only b) :: parts none bs
  | none, b :: bs => .one (.only b) :: parts none bs
  | some c, [] => [.one c]
  | some c, 0x5c :: b :: bs => parts (some (c.add b b)) bs
  | some c, 0x5d :: bs => .one c :: parts none bs
  | some c, x :: 0x2d :: y :: bs => parts (some (c.add x y)) bs
  | some c, b :: bs => parts (some (c.add b b)) bs

/-- Bytes fit the parts of a pattern. -/
def fitsAll : List Part → List UInt8 → Bool
  | [], bs => bs.isEmpty
  | .one c :: ps, b :: bs => c.has b && fitsAll ps bs
  | .one _ :: _, [] => false
  | .any :: ps, bs => bs.tails.any (fitsAll ps)

end Glob

/-- The key fits the pattern. -/
def Fits (pattern k : String) : Prop :=
  Glob.fitsAll (Glob.parts none (utf8 pattern.toList)) (utf8 k.toList) = true

instance (pattern k : String) : Decidable (Fits pattern k) :=
  inferInstanceAs (Decidable (_ = true))

example : Fits "chat[1-3]/*" "chat2/ws" ∧ ¬ Fits "chat[1-3]/*" "chat[1-3]/ws" ∧
    Fits "chat\\[1-3]/*" "chat[1-3]/ws" ∧ ¬ Fits "chat[^a-c]?" "chatb!" := by decide +kernel

/-- The text stands for itself at the beginning of a pattern. -/
def IsPlain (text : String) : Prop :=
  ∀ c ∈ text.toList, c ∉ ['*', '?', '[', '\\']

instance (text : String) : Decidable (IsPlain text) :=
  List.decidableBAll (fun c => c ∉ ['*', '?', '[', '\\']) text.toList

namespace Glob

variable {bs rest : List UInt8} {ps : List Part}

/-- A byte that is read as itself. -/
def IsPlainByte (b : UInt8) : Prop :=
  b ≠ 0x2a ∧ b ≠ 0x3f ∧ b ≠ 0x5b ∧ b ≠ 0x5c

theorem isPlainByte_of_mem_utf8 {cs : List Char} (h : ∀ c ∈ cs, c ∉ ['*', '?', '[', '\\'])
    {b : UInt8} (hb : b ∈ utf8 cs) : IsPlainByte b := by
  obtain ⟨c, hc, hb⟩ := List.mem_flatMap.mp hb
  by_cases hascii : c.toNat < 0x80
  · rw [Json.utf8EncodeChar_of_lt hascii, List.mem_singleton] at hb
    have hn : b.toNat = c.toNat := by rw [hb, UInt8.toNat_ofNat']; omega
    have hne (special : Char) (hspecial : special ∈ ['*', '?', '[', '\\']) :
        b.toNat ≠ special.toNat := fun he =>
      h c hc (Char.toNat_inj.mp (hn.symm.trans he) ▸ hspecial)
    refine ⟨?_, ?_, ?_, ?_⟩ <;> rintro rfl
    · exact hne '*' (by decide) rfl
    · exact hne '?' (by decide) rfl
    · exact hne '[' (by decide) rfl
    · exact hne '\\' (by decide) rfl
  · have hb' : 0x80 ≤ b := Json.le_of_mem_utf8EncodeChar (Nat.le_of_not_lt hascii) hb
    unfold IsPlainByte
    grind

theorem parts_plain_append (h : ∀ b ∈ bs, IsPlainByte b) :
    parts none (bs ++ rest) = (bs.map fun b => .one (.only b)) ++ parts none rest := by
  induction bs with
  | nil => rfl
  | cons b bs ih =>
    obtain ⟨⟨hstar, hquestion, hbracket, hbackslash⟩, hbs⟩ := List.forall_mem_cons.mp h
    rw [List.cons_append, List.map_cons, List.cons_append, ← ih hbs, parts.eq_def]
    split <;> grind

theorem fitsAll_only_append {keyBytes : List UInt8} :
    fitsAll ((bs.map fun b => .one (.only b)) ++ ps) keyBytes = true ↔
      ∃ rest, keyBytes = bs ++ rest ∧ fitsAll ps rest = true := by
  induction bs generalizing keyBytes with
  | nil => simp
  | cons b bs ih =>
    cases keyBytes with
    | nil => simp [fitsAll]
    | cons b' keyBytes =>
      rw [List.map_cons, List.cons_append, fitsAll, Bool.and_eq_true, ByteClass.has_only, ih]
      simp only [List.cons_append, List.cons.injEq, and_assoc, exists_and_left]

theorem fitsAll_any (keyBytes : List UInt8) : fitsAll [.any] keyBytes = true := by
  rw [fitsAll, List.any_eq_true]
  exact ⟨[], (List.mem_tails _ _).mpr (List.nil_suffix), rfl⟩

end Glob

/-! ## Beginnings -/

theorem utf8EncodeChar_append_inj {c d : Char} {xs ys : List UInt8}
    (h : String.utf8EncodeChar c ++ xs = String.utf8EncodeChar d ++ ys) : c = d := by
  have hdecoded (c : Char) (xs : List UInt8) :
      (String.utf8EncodeChar c ++ xs).toByteArray.utf8DecodeChar? 0 = some c := by
    rw [List.toByteArray_append]
    exact ByteArray.utf8DecodeChar?_utf8EncodeChar_append
  exact Option.some_inj.mp ((hdecoded c xs).symm.trans (h ▸ hdecoded d ys))

/-- A text begins with another one if its bytes do. -/
theorem utf8_prefix_utf8 {cs ds : List Char} : utf8 cs <+: utf8 ds ↔ cs <+: ds := by
  refine ⟨fun h => ?_, fun ⟨rest, h⟩ => h ▸ ⟨utf8 rest, (Json.utf8_append cs rest).symm⟩⟩
  induction cs generalizing ds with
  | nil => exact List.nil_prefix
  | cons c cs ih =>
    obtain ⟨rest, hrest⟩ := h
    rw [Json.utf8_cons, List.append_assoc] at hrest
    cases ds with
    | nil => exact absurd (List.append_eq_nil_iff.mp hrest).1 String.utf8EncodeChar_ne_nil
    | cons d ds =>
      rw [Json.utf8_cons] at hrest
      cases utf8EncodeChar_append_inj hrest
      exact List.cons_prefix_cons.mpr ⟨rfl, ih ⟨rest, List.append_cancel_left hrest⟩⟩

/-- The keys that fit a plain text with a star behind it are those that begin with the text. -/
theorem fits_append_star {start : String} (h : IsPlain start) (k : String) :
    Fits (start ++ "*") k ↔ start.toList <+: k.toList := by
  have hparts : Glob.parts none (utf8 (start ++ "*").toList) =
      ((utf8 start.toList).map fun b => .one (.only b)) ++ [.any] := by
    rw [String.toList_append, Json.utf8_append,
      Glob.parts_plain_append fun b => Glob.isPlainByte_of_mem_utf8 h]
    rfl
  rw [Fits, hparts, Glob.fitsAll_only_append, ← utf8_prefix_utf8]
  simp only [Glob.fitsAll_any, and_true, List.IsPrefix, @eq_comm _ (utf8 k.toList)]

end ChatRelay.Redis
