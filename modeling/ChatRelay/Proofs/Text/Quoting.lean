import ChatRelay.Proofs.Text.Grammar
import ChatRelay.Text.Quoted

/-!
# A quoted text shows which text it is

Two texts that are quoted alike are the same text (`quoted_injective`), blanks and characters that
cannot be seen included: what is written for one character is never the beginning of what is written
for another (`Quotes.append_inj`). A backslash always begins an escape, the character behind it says
which, and the digits of a code point end at a brace.
-/

namespace ChatRelay.Text

variable {c d : Char} {xs ys before behind : List Char} {b m n : Nat}

/-! ## Digits of a code point -/

theorem digitChar_inj : ∀ m < 16, ∀ n < 16, m.digitChar = n.digitChar → m = n := by
  decide

theorem exists_of_mem_toDigits (hb : 1 < b) (h : c ∈ Nat.toDigits b n) :
    ∃ k : Nat, c = k.digitChar := by
  induction n using Nat.strongRecOn with
  | ind n ih =>
    rw [Nat.toDigits_eq_if hb] at h
    split at h
    next => exact ⟨n, List.mem_singleton.mp h⟩
    next hn =>
      rcases List.mem_append.mp h with h | h
      · exact ih (n / b) (Nat.div_lt_self (by omega) hb) h
      · exact ⟨n % b, List.mem_singleton.mp h⟩

/-- In a base up to sixteen the digits tell the number. -/
theorem toDigits_inj (hb : 1 < b) (hb' : b ≤ 16) (h : Nat.toDigits b m = Nat.toDigits b n) :
    m = n := by
  induction m using Nat.strongRecOn generalizing n with
  | ind m ih =>
    have hne (k : Nat) (c d : Char) : [c] ≠ Nat.toDigits b k ++ [d] := by
      rw [← List.nil_append [c]]
      exact fun he => Nat.toDigits_ne_nil (List.append_inj_left' he rfl).symm
    rw [Nat.toDigits_eq_if hb, Nat.toDigits_eq_if (n := n) hb] at h
    split at h <;> split at h
    next hm hn => exact digitChar_inj m (by omega) n (by omega) (List.cons.inj h).1
    next => exact absurd h (hne _ _ _)
    next => exact absurd h.symm (hne _ _ _)
    next hm hn =>
      have hmod : m % b < b ∧ n % b < b := ⟨Nat.mod_lt _ (by omega), Nat.mod_lt _ (by omega)⟩
      have hdiv := ih (m / b) (Nat.div_lt_self (by omega) hb) (List.append_inj_left' h rfl)
      have hlast := digitChar_inj _ (by omega) _ (by omega)
        (List.cons.inj (List.append_inj_right' h rfl)).1
      rw [← Nat.div_add_mod m b, ← Nat.div_add_mod n b, hdiv, hlast]

/-! ## What is written for a character -/

/-- The characters that have an escape of their own, each with what stands behind the backslash. -/
def namedEscapes : List (Char × Char) :=
  [('"', '"'), ('\\', '\\'), ('\n', 'n'), ('\r', 'r'), ('\t', 't'), ('\x00', '0')]

/-- `xs` is written for `c`. -/
inductive Quotes (c : Char) : List Char → Prop
  | plain (hc : c ≠ '\\') : Quotes c [c]
  | named {e : Char} (he : (c, e) ∈ namedEscapes) : Quotes c ['\\', e]
  | code : Quotes c ('\\' :: 'u' :: '{' :: Nat.toDigits 16 c.toNat ++ ['}'])

theorem quotes_quoteChar (c : Char) : Quotes c (quoteChar c).toList := by
  unfold quoteChar
  split
  iterate 6 exact .named (by decide)
  next hbackslash _ _ _ _ =>
    split
    next =>
      have hcode : ("\\u\x7b" ++ hexDigits c.toNat ++ "\x7d").toList =
          '\\' :: 'u' :: '{' :: Nat.toDigits 16 c.toNat ++ ['}'] := by
        simp only [String.toList_append, hexDigits, String.toList_ofList]
        rfl
      rw [hcode]
      exact .code
    next =>
      rw [Char.toString, String.toList_singleton]
      exact .plain hbackslash

theorem Quotes.ne_nil (h : Quotes c xs) : xs ≠ [] := by
  cases h <;> exact List.cons_ne_nil _ _

/-- Where one character ends and which it is can be told from what is written. -/
theorem Quotes.append_inj (hc : Quotes c xs) (hd : Quotes d ys) (h : xs ++ before = ys ++ behind) :
    c = d ∧ before = behind := by
  have hnamed : ∀ p ∈ namedEscapes, p.2 ≠ 'u' := by decide
  have hinj : ∀ p ∈ namedEscapes, ∀ q ∈ namedEscapes, p.2 = q.2 → p = q := by decide
  have hbrace (n : Nat) : '}' ∉ Nat.toDigits 16 n := fun hmem => by
    obtain ⟨k, hk⟩ := exists_of_mem_toDigits (by decide) hmem
    exact Nat.digitChar_ne '}' (by decide) hk.symm
  cases hc with
  | plain hc =>
    cases hd with
    | plain hd => exact List.cons.inj h
    | named | code => exact absurd (List.cons.inj h).1 hc
  | named he =>
    cases hd with
    | plain hd => exact absurd (List.cons.inj h).1.symm hd
    | named he' =>
      obtain ⟨hletter, hrest⟩ := List.cons.inj (List.cons.inj h).2
      exact ⟨congrArg Prod.fst (hinj _ he _ he' hletter), hrest⟩
    | code => exact absurd (List.cons.inj (List.cons.inj h).2).1 (hnamed _ he)
  | code =>
    cases hd with
    | plain hd => exact absurd (List.cons.inj h).1.symm hd
    | named he => exact absurd (List.cons.inj (List.cons.inj h).2).1.symm (hnamed _ he)
    | code =>
      simp only [List.cons_append, List.append_assoc, List.cons.injEq, true_and,
        List.nil_append] at h
      -- The first brace ends the digits on both sides.
      have hcut : some (Nat.toDigits 16 c.toNat, before) =
          some (Nat.toDigits 16 d.toNat, behind) := by
        rw [← splitOnce?_eq_some_iff.mpr ⟨hbrace c.toNat, rfl⟩, h]
        exact splitOnce?_eq_some_iff.mpr ⟨hbrace d.toNat, rfl⟩
      obtain ⟨hdigits, hrest⟩ := Prod.mk.inj (Option.some.inj hcut)
      exact ⟨Char.toNat_inj.mp (toDigits_inj (by decide) (by decide) hdigits), hrest⟩

/-! ## Whole texts -/

theorem flatMap_quoteChar_inj
    (h : xs.flatMap (fun c => (quoteChar c).toList) = ys.flatMap fun c => (quoteChar c).toList) :
    xs = ys := by
  induction xs generalizing ys with
  | nil =>
    cases ys with
    | nil => rfl
    | cons d ys => exact absurd (List.append_eq_nil_iff.mp h.symm).1 (quotes_quoteChar d).ne_nil
  | cons c xs ih =>
    cases ys with
    | nil => exact absurd (List.append_eq_nil_iff.mp h).1 (quotes_quoteChar c).ne_nil
    | cons d ys =>
      obtain ⟨rfl, hrest⟩ := (quotes_quoteChar c).append_inj (quotes_quoteChar d) h
      rw [ih hrest]

/-- A quotation does not stand for two texts. -/
theorem quoted_injective : Function.Injective quoted := by
  intro s t h
  have hquoted (s : String) : (quoted s).toList =
      '"' :: (s.toList.flatMap fun c => (quoteChar c).toList) ++ ['"'] := by
    simp [quoted, List.flatMap_map]
  have hlists := congrArg String.toList h
  rw [hquoted, hquoted] at hlists
  have hinner := (List.cons.inj (List.append_inj_left' hlists rfl)).2
  exact String.toList_inj.mp (flatMap_quoteChar_inj hinner)

end ChatRelay.Text
