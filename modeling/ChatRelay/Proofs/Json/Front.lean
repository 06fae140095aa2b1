import ChatRelay.Proofs.Json.Lossless

/-!
# Reading from the front

A value that is read from the front of a text is the same whatever stands behind it
(`Codec.Prompt.decodeFront_append`). Two things are to be seen. The tokens of the value must be read
from the longer text as they were read from the shorter one: a token that does not break off is not
changed by more text, except that more digits may continue a number (`scan_extend`), so that the
tokens up to one that is no number are the same in both (`exists_tokens_append`). And the codec must
not look behind the value: `FrontOnly` says so of one answer of one reader, with a statement about
the last token that the answer rests on, and `Codec.Prompt` of a codec. The codecs that are made
from others keep it, and the last token of a record is its bracket.
-/

namespace ChatRelay.Json

/-! ## A token and the text behind it -/

section Scanners

variable {bs more : List UInt8} {s : Significand} {negative : Bool}

theorem takeDigits_append (h : bs.dropWhile isDigitByte ≠ []) :
    (bs ++ more).takeWhile isDigitByte = bs.takeWhile isDigitByte := by
  rw [List.takeWhile_append, if_neg]
  intro hlen
  have hall : bs.takeWhile isDigitByte = bs :=
    (List.takeWhile_prefix isDigitByte).eq_of_length hlen
  exact h (List.dropWhile_eq_nil_iff.mpr (List.takeWhile_eq_self_iff.mp hall))

theorem dropDigits_append (h : bs.dropWhile isDigitByte ≠ []) :
    (bs ++ more).dropWhile isDigitByte = bs.dropWhile isDigitByte ++ more := by
  rw [List.dropWhile_append, if_neg (by simpa using h)]

theorem digitFlaw_append (h : bs ≠ []) : digitFlaw (bs ++ more) = digitFlaw bs := by
  simp [digitFlaw, h]

theorem scanExponentDigits_extend (h : (scanExponentDigits s negative bs).2 ≠ []) :
    scanExponentDigits s negative (bs ++ more) =
      (scanExponentDigits s negative bs).map id (· ++ more) := by
  have hrest : bs.dropWhile isDigitByte ≠ [] := by
    unfold scanExponentDigits at h
    dsimp only at h
    split at h <;> exact h
  unfold scanExponentDigits
  dsimp only
  rw [takeDigits_append hrest, dropDigits_append hrest, digitFlaw_append hrest]
  split <;> rfl

theorem scanExponent_cons (s : Significand) (b : UInt8) (bs : List UInt8) :
    scanExponent s (b :: bs) =
      if b = 0x2B then scanExponentDigits s false bs
      else if b = 0x2D then scanExponentDigits s true bs
      else scanExponentDigits s false (b :: bs) := by
  unfold scanExponent
  split <;> simp_all

theorem scanExponent_extend (h : (scanExponent s bs).2 ≠ []) :
    scanExponent s (bs ++ more) = (scanExponent s bs).map id (· ++ more) := by
  cases bs with
  | nil => exact absurd rfl h
  | cons b bs =>
    rw [scanExponent_cons] at h
    rw [List.cons_append, scanExponent_cons, scanExponent_cons]
    split_ifs at h ⊢ <;> exact scanExponentDigits_extend h

theorem scanFraction_extend (h : (scanFraction s bs).2 ≠ []) :
    scanFraction s (bs ++ more) = (scanFraction s bs).map id (· ++ more) := by
  have hrest : bs.dropWhile isDigitByte ≠ [] := by
    intro hnil
    unfold scanFraction at h
    rw [hnil] at h
    dsimp only at h
    split at h <;> exact h rfl
  obtain ⟨b, rest, hb⟩ := List.exists_cons_of_ne_nil hrest
  revert h
  unfold scanFraction
  dsimp only
  rw [takeDigits_append hrest, dropDigits_append hrest, digitFlaw_append hrest, hb]
  split
  · exact fun _ => rfl
  · split
    next hr =>
      cases hr
      exact scanExponent_extend
    next hr =>
      cases hr
      exact scanExponent_extend
    next he hE =>
      rw [List.cons_append]
      split <;> simp_all

theorem scanNumber_extend (h : (scanNumber negative bs).2 ≠ []) :
    scanNumber negative (bs ++ more) = (scanNumber negative bs).map id (· ++ more) := by
  have hrest : bs.dropWhile isDigitByte ≠ [] := by
    intro hnil
    unfold scanNumber at h
    rw [hnil] at h
    dsimp only at h
    split at h <;> exact h rfl
  obtain ⟨b, rest, hb⟩ := List.exists_cons_of_ne_nil hrest
  revert h
  unfold scanNumber
  dsimp only
  rw [takeDigits_append hrest, dropDigits_append hrest, digitFlaw_append hrest, hb]
  split
  · exact fun _ => rfl
  · exact fun _ => rfl
  · split
    next hr =>
      cases hr
      exact scanFraction_extend
    next hr =>
      cases hr
      exact scanExponent_extend
    next hr =>
      cases hr
      exact scanExponent_extend
    next hpoint he hE =>
      rw [List.cons_append]
      split <;> simp_all

theorem isNumber_scanExponentDigits (h : (scanExponentDigits s negative bs).1.isBroken = false) :
    (scanExponentDigits s negative bs).1.isNumber := by
  unfold scanExponentDigits at h ⊢
  grind [Token.isBroken, Token.isNumber]

theorem isNumber_scanExponent (h : (scanExponent s bs).1.isBroken = false) :
    (scanExponent s bs).1.isNumber := by
  unfold scanExponent at h ⊢
  split at h <;> exact isNumber_scanExponentDigits h

theorem isNumber_scanFraction (h : (scanFraction s bs).1.isBroken = false) :
    (scanFraction s bs).1.isNumber := by
  unfold scanFraction at h ⊢
  grind [isNumber_scanExponent, Token.isBroken, Token.isNumber]

/-- What begins as a number is a number or breaks off. -/
theorem isNumber_scanNumber (h : (scanNumber negative bs).1.isBroken = false) :
    (scanNumber negative bs).1.isNumber := by
  unfold scanNumber at h ⊢
  grind [isNumber_scanExponent, isNumber_scanFraction, Token.isBroken, Token.isNumber]

theorem scanTextFrom_extend {acc : List UInt8} {paired : Bool}
    (h : (scanTextFrom acc paired bs).1.isBroken = false) :
    scanTextFrom acc paired (bs ++ more) = (scanTextFrom acc paired bs).map id (· ++ more) := by
  fun_induction scanTextFrom acc paired bs with
  | case1 | case3 | case5 | case8 | case9 | case10 | case13 | case14 | case16 | case17 => cases h
  | case2 => exact scanTextFrom_quote
  | case4 acc paired a b c d rest n hu ht ih =>
    rw [← ih h]
    simp [scanTextFrom, hu, ht]
  | case6 acc paired a b c d n hu ht hl a' b' c' d' rest m hu' ht' ih =>
    rw [← ih h]
    simp [scanTextFrom, hu, ht, hl, hu', ht']
  | case7 acc paired a b c d n hu ht hl a' b' c' d' rest m hu' ht' ih =>
    rw [← ih h]
    simp [scanTextFrom, hu, ht, hl, hu', ht']
  | case11 acc paired a b c d n hu ht hl b' rest hunit hcut hhead ih =>
    -- What follows the first half of a pair is no unit, and enough of it is there to tell.
    have hne : b' ≠ 0x5C ∨ ∃ e rest', rest = e :: rest' ∧ e ≠ 0x75 := by
      by_cases hb : b' = 0x5C
      · obtain ⟨e, rest', rfl⟩ := List.exists_cons_of_ne_nil (hcut hb)
        exact .inr ⟨e, rest', rfl, fun he => hhead rest' hb (he ▸ rfl)⟩
      · exact .inl hb
    rw [← ih h]
    simp only [List.cons_append]
    rw [scanTextFrom]
    simp only [hu, ht, hl, if_true, if_false, Bool.false_eq_true]
    split <;> grind
  | case12 acc paired a b c d rest n hu ht hl ih =>
    rw [← ih h]
    exact scanTextFrom_unit hu (by simpa using hl) (by simpa using ht)
  | case15 acc paired b rest _ _ e he ih =>
    rw [← ih h]
    exact scanTextFrom_escape he
  | case18 acc paired b rest hq hunit hhead hcut he hc ih =>
    have hne : b ≠ 0x5C := by
      intro hb
      obtain ⟨e, rest', rfl⟩ := List.exists_cons_of_ne_nil (hcut hb)
      exact he e rest' hb rfl
    rw [← ih h]
    exact scanTextFrom_plain hq hne (UInt8.not_lt.mp hc)

theorem scanWord_extend {value : Token} {ws : List UInt8}
    (h : (scanWord value ws bs).1.isBroken = false) :
    scanWord value ws (bs ++ more) = (scanWord value ws bs).map id (· ++ more) := by
  fun_induction scanWord value ws bs with
  | case1 bs => rw [scanWord]; rfl
  | case2 => cases h
  | case3 ws b bs ih => rw [List.cons_append, scanWord, if_pos rfl, ih h]
  | case4 => cases h

/-- A token that does not break off is the same with more text behind it, unless it is a number
and the text ends with it. -/
theorem scan_extend {b : UInt8} (hb : (scan b bs).1.isBroken = false)
    (hn : (scan b bs).1.isNumber → (scan b bs).2 ≠ []) :
    scan b (bs ++ more) = (scan b bs).map id (· ++ more) := by
  revert hb hn
  unfold scan
  split
  case h_7 => exact fun hb _ => scanTextFrom_extend hb
  case h_8 | h_9 | h_10 => exact fun hb _ => scanWord_extend hb
  case h_11 => exact fun hb hn => scanNumber_extend (hn (isNumber_scanNumber hb))
  case h_12 =>
    split
    · exact fun hb hn => @scanNumber_extend (b :: bs) more _ (hn (isNumber_scanNumber hb))
    · exact fun _ _ => rfl
  all_goals exact fun _ _ => rfl

end Scanners

/-! ## The tokens of a longer text -/

section Tokens

variable {b : UInt8} {bs : List UInt8}

theorem tokens_nil : tokens [] = [] :=
  tokensOnto_nil []

theorem tokens_blank (hb : isBlankByte b = true) : tokens (b :: bs) = tokens bs :=
  tokensOnto_blank hb

theorem tokens_broken (hb : isBlankByte b = false) (ht : (scan b bs).1.isBroken = true) :
    tokens (b :: bs) = [(scan b bs).1] := by
  rw [tokens, tokensOnto, hb, ht]
  rfl

theorem tokens_scan (hb : isBlankByte b = false) (ht : (scan b bs).1.isBroken = false) :
    tokens (b :: bs) = (scan b bs).1 :: tokens (scan b bs).2 := by
  rw [tokens, tokensOnto_scan hb rfl ht]
  exact tokensOnto_append [] [(scan b bs).1] (scan b bs).2

theorem tokens_scan_append (hb : isBlankByte b = false) (ht : (scan b bs).1.isBroken = false)
    (hn : (scan b bs).1.isNumber → (scan b bs).2 ≠ []) (more : List UInt8) :
    tokens (b :: (bs ++ more)) = (scan b bs).1 :: tokens ((scan b bs).2 ++ more) := by
  have hextend := @scan_extend bs more b ht hn
  rw [tokens_scan hb (by rw [hextend]; exact ht), hextend]
  rfl

/-- Nothing that stands behind the token continues it. -/
def Token.IsSettled (t : Token) : Prop :=
  t.isBroken = false ∧ t.isNumber = false

variable {used tail : List Token} {t : Token}

theorem ne_nil_of_tokens_eq (h : tokens bs = used ++ t :: tail) : bs ≠ [] := by
  rintro rfl
  rw [tokens_nil] at h
  exact List.append_ne_nil_of_right_ne_nil used (List.cons_ne_nil t tail) h.symm

/-- The tokens of a text up to a settled one are read from every longer text. -/
theorem exists_tokens_append (ht : t.IsSettled) (h : tokens bs = used ++ t :: tail)
    (more : List UInt8) : ∃ tail', tokens (bs ++ more) = used ++ t :: tail' := by
  induction hlen : bs.length using Nat.strongRecOn generalizing bs used with
  | ind n ih =>
    subst hlen
    obtain ⟨b, bs, rfl⟩ := List.exists_cons_of_ne_nil (ne_nil_of_tokens_eq h)
    rw [List.cons_append]
    cases hb : isBlankByte b with
    | true =>
      rw [tokens_blank hb] at h ⊢
      exact ih _ (Nat.lt_succ_self _) h rfl
    | false =>
      cases hbroken : (scan b bs).1.isBroken with
      | true =>
        rw [tokens_broken hb hbroken] at h
        have hmem : t ∈ [(scan b bs).1] := h ▸ List.mem_append_right used List.mem_cons_self
        have hsettled : (scan b bs).1.IsSettled := List.mem_singleton.mp hmem ▸ ht
        rw [hsettled.1] at hbroken
        cases hbroken
      | false =>
        rw [tokens_scan hb hbroken] at h
        cases used with
        | nil =>
          obtain ⟨rfl, -⟩ := List.cons.inj h
          exact ⟨_, tokens_scan_append hb hbroken (fun hn => by simp [ht.2] at hn) more⟩
        | cons u used =>
          obtain ⟨rfl, htail⟩ := List.cons.inj h
          obtain ⟨tail', htail'⟩ := ih _ (Nat.lt_succ_of_le (length_scan_le b bs)) htail rfl
          -- Another token follows, so that the text does not end with this one.
          have hscan := tokens_scan_append hb hbroken (fun _ => ne_nil_of_tokens_eq htail) more
          exact ⟨tail', by rw [hscan, htail', List.cons_append]⟩

end Tokens

/-! ## Answers that rest on a front -/

/-- The answer `answer rest` of `f` to `ts` rests on the tokens in front of `rest`, the last of
which is as `P` says: whatever stands behind them, `f` answers in the same way. -/
def FrontOnly {β : Type} (P : Token → Prop) (f answer : List Token → β)
    (ts rest : List Token) : Prop :=
  ∃ used t, ts = used ++ t :: rest ∧ P t ∧ ∀ more, f (used ++ t :: more) = answer more

/-- Any token. -/
abbrev anyToken (_ : Token) : Prop := True

namespace FrontOnly

variable {β γ : Type} {P : Token → Prop} {f answer : List Token → β}
  {g answer' : List Token → γ} {t : Token} {ts rest : List Token}

theorem singleton (ht : P t) (h : ∀ more, f (t :: more) = answer more) :
    FrontOnly P f answer (t :: rest) rest :=
  ⟨[], t, rfl, ht, h⟩

/-- What follows behind a token from an answer rests on that token and the front of the answer. -/
theorem cons (h : FrontOnly P f answer ts rest)
    (hg : ∀ us us', f us = answer us' → g (t :: us) = answer' us') :
    FrontOnly P g answer' (t :: ts) rest := by
  obtain ⟨used, u, rfl, hu, hf⟩ := h
  exact ⟨t :: used, u, rfl, hu, fun more => hg _ more (hf more)⟩

/-- What follows from an answer, and from the token that comes first, rests on the same front. -/
theorem imp (h : FrontOnly P f answer ts rest)
    (hg : ∀ us us', us.head? = ts.head? → f us = answer us' → g us = answer' us') :
    FrontOnly P g answer' ts rest := by
  obtain ⟨used, t, rfl, ht, hf⟩ := h
  exact ⟨used, t, rfl, ht, fun more => hg _ more (by cases used <;> rfl) (hf more)⟩

end FrontOnly

theorem frontOnly_walk {manner : Manner} {due : Due} {stack : List Container}
    {ts rest : List Token} (h : walk manner due stack ts = .ok rest) :
    FrontOnly anyToken (walk manner due stack) .ok ts rest := by
  fun_induction walk manner due stack ts with
  | case1 => cases h
  | case2 due stack token ts due' stack' hstep ih =>
    exact (ih h).cons fun us us' hus => by simp only [walk, hstep, hus]
  | case3 due stack token ts hstep =>
    cases h
    exact .singleton trivial fun more => by rw [walk, hstep]
  | case4 => cases h

/-! ## Codecs -/

namespace Codec

variable {α β : Type} {c : Codec α} {P : Token → Prop}

/-- A value that is read rests on its own tokens, the last of which is as `P` says. -/
def Prompt (P : Token → Prop) (c : Codec α) : Prop :=
  ∀ ⦃room ts a rest⦄, c.read room ts = .ok (a, rest) →
    FrontOnly P (c.read room) (fun more => .ok (a, more)) ts rest

/-- A value that is read from the front of a text is read from the front of every longer one. -/
theorem Prompt.decodeFront_append (hc : c.Prompt Token.IsSettled) {bytes : List UInt8} {a : α}
    (h : c.decodeFront bytes = .ok a) (more : List UInt8) :
    c.decodeFront (bytes ++ more) = .ok a := by
  obtain ⟨⟨a, rest⟩, hread, rfl⟩ := exists_of_map_eq_ok h
  obtain ⟨used, t, hused, ht, hfront⟩ := hc hread
  obtain ⟨tail, htail⟩ := exists_tokens_append ht hused more
  rw [decodeFront, htail, hfront]
  rfl

theorem decodeFront_of_decode {bytes : List UInt8} {a : α} (h : c.decode bytes = .ok a) :
    c.decodeFront bytes = .ok a := by
  rw [decodeFront, decode_eq_ok_iff.mp h]
  rfl

theorem Prompt.toAny (hc : c.Prompt P) : c.Prompt anyToken := by
  intro room ts a rest h
  obtain ⟨used, t, hts, -, hfront⟩ := hc h
  exact ⟨used, t, hts, trivial, hfront⟩

theorem prompt_scalar {accept : Token → Option (Except Fault α)} {write : α → Token} :
    (scalar accept write).Prompt anyToken := by
  intro room ts a rest h
  cases ts with
  | nil => cases h
  | cons token ts =>
    simp only [scalar, readScalar] at h
    split at h <;> cases h
    next haccept => exact .singleton trivial fun more => by simp only [scalar, readScalar, haccept]

theorem Prompt.refine {of? : α → Except Fault β} {back : β → α} (hc : c.Prompt P) :
    (c.refine of? back).Prompt P := by
  intro room ts b rest h
  simp only [Codec.refine] at h
  split at h
  next => cases h
  next a rest' hread =>
    obtain ⟨b', hb, hpair⟩ := exists_of_map_eq_ok h
    cases hpair
    refine (hc hread).imp fun us us' _ hus => ?_
    simp only [Codec.refine, hus, hb, Except.map]

theorem Prompt.map {of : α → β} {back : β → α} (hc : c.Prompt P) : (c.map of back).Prompt P :=
  hc.refine

theorem frontOnly_readSummary {room : Nat} {s : Summary} {ts rest : List Token}
    (h : readSummary room ts = .ok (s, rest)) :
    FrontOnly anyToken (readSummary room) (fun more => .ok (s, more)) ts rest := by
  cases ts with
  | nil => cases h
  | cons token ts =>
    simp only [readSummary] at h
    split at h <;> cases h
    next hwalk =>
      refine (frontOnly_walk hwalk).imp fun us us' hhead hus => ?_
      obtain ⟨us, rfl⟩ := List.head?_eq_some_iff.mp hhead
      simp only [readSummary, hus]

theorem prompt_summarized {of? : Summary → Except Fault α} {toInt : α → Int} :
    (summarized of? toInt).Prompt anyToken := by
  intro room ts b rest h
  simp only [summarized] at h
  split at h
  next => cases h
  next s rest' hread =>
    obtain ⟨a, ha, hpair⟩ := exists_of_map_eq_ok h
    cases hpair
    refine (frontOnly_readSummary hread).imp fun us us' _ hus => ?_
    simp only [summarized, hus, ha, Except.map]

end Codec

/-! ## Records -/

namespace Fields

variable {τ : Type} {room : Nat} {fs : Fields τ} {slots slots' : fs.Slots} {ts rest : List Token}

/-- The values of all fields rest on their own tokens. -/
def Prompt : {τ : Type} → Fields τ → Prop
  | _, nil => True
  | _, cons _ codec _ rest => codec.Prompt anyToken ∧ rest.Prompt

theorem eq_cons_of_readColon {ts' : List Token} (h : readColon ts = .ok ts') :
    ts = .colon :: ts' := by
  unfold readColon at h
  split at h <;> cases h
  rfl

/-! ### Objects -/

theorem frontOnly_readMember? (hfs : fs.Prompt) {key : String}
    (h : readMember? room key ts fs slots = some (.ok (slots', rest))) :
    FrontOnly anyToken (readMember? room key · fs slots)
      (fun more => some (.ok (slots', more))) ts rest := by
  induction fs with
  | nil => cases h
  | cons name codec dflt fs ih =>
    obtain ⟨hcodec, hfs⟩ := hfs
    rw [readMember?] at h
    split at h
    next hname =>
      split at h
      next => cases h
      next hslot =>
        split at h
        next => cases h
        next ts' hcolon =>
          obtain ⟨⟨a, rest'⟩, hread, hpair⟩ := exists_of_map_eq_ok (Option.some.inj h)
          cases hpair
          cases eq_cons_of_readColon hcolon
          refine (hcodec hread).cons fun us us' hus => ?_
          simp only [readMember?, if_pos hname, if_neg hslot, readColon, hus, Except.map]
    next hname =>
      obtain ⟨e, hrest, he⟩ := Option.map_eq_some_iff.mp h
      obtain ⟨⟨slots₂, rest'⟩, rfl, hpair⟩ := exists_of_map_eq_ok he
      cases hpair
      refine (ih hfs hrest).imp fun us us' _ hus => ?_
      simp only [readMember?, if_neg hname, hus]
      rfl

theorem notMem_names_of_readMember? {key : String} (h : readMember? room key ts fs slots = none) :
    key ∉ fs.names := by
  induction fs with
  | nil => exact List.not_mem_nil
  | cons name codec dflt fs ih =>
    rw [readMember?] at h
    split at h
    next => cases h
    next hname =>
      exact List.not_mem_cons_of_ne_of_not_mem (Ne.symm hname) (ih (Option.map_eq_none_iff.mp h))

theorem frontOnly_readMember (hfs : fs.Prompt) {key : String}
    (h : readMember room fs slots key ts = .ok (slots', rest)) :
    FrontOnly anyToken (readMember room fs slots key) (fun more => .ok (slots', more)) ts rest := by
  unfold readMember at h
  split at h
  next result hmember =>
    subst h
    refine (frontOnly_readMember? hfs hmember).imp fun us us' _ hus => ?_
    simp only [readMember, hus]
  next hmember =>
    have hunknown := notMem_names_of_readMember? hmember
    split at h
    next => cases h
    next ts' hcolon =>
      split at h <;> cases h
      next hskip =>
        cases eq_cons_of_readColon hcolon
        refine (frontOnly_walk hskip).cons fun us us' hus => ?_
        simp only [readMember, readMember?_of_notMem hunknown, readColon, skip, hus]

theorem eq_cons_of_readKey {key : String} (h : readKey ts = .ok (key, rest)) :
    ts = .text (some key) :: rest := by
  unfold readKey at h
  split at h <;> cases h
  rfl

theorem frontOnly_readNextKey {first : Bool} {key : String}
    (h : readNextKey first ts = .ok (some key, rest)) :
    FrontOnly anyToken (readNextKey first) (fun more => .ok (some key, more)) ts rest := by
  unfold readNextKey at h
  split at h
  next => cases h
  next => cases h
  next ts =>
    split at h
    next => cases h
    next hfirst =>
      obtain ⟨⟨key', rest'⟩, hkey, hpair⟩ := exists_of_map_eq_ok h
      cases hpair
      cases eq_cons_of_readKey hkey
      exact ⟨[.comma], .text (some key'), rfl, trivial, fun more => if_neg hfirst⟩
  next token ts _ _ =>
    split at h
    next hfirst =>
      obtain ⟨⟨key', rest'⟩, hkey, hpair⟩ := exists_of_map_eq_ok h
      cases hpair
      cases eq_cons_of_readKey hkey
      exact .singleton trivial fun more => if_pos hfirst
    next => cases h

theorem eq_cons_of_readNextKey {first : Bool} (h : readNextKey first ts = .ok (none, rest)) :
    ts = .endObject :: rest := by
  have hsome {ts : List Token}
      (h : (readKey ts).map (fun r => (some r.1, r.2)) = .ok (none, rest)) : False := by
    obtain ⟨r, -, hpair⟩ := exists_of_map_eq_ok h
    cases hpair
  unfold readNextKey at h
  split at h
  next => cases h
  next => cases h; rfl
  next =>
    split at h
    next => cases h
    next => exact (hsome h).elim
  next =>
    split at h
    next => exact (hsome h).elim
    next => cases h

theorem frontOnly_readMembers (hfs : fs.Prompt) {first : Bool} {t : τ}
    (h : readMembers room fs first slots ts = .ok (t, rest)) :
    FrontOnly Token.IsSettled (readMembers room fs first slots) (fun more => .ok (t, more))
      ts rest := by
  fun_induction readMembers room fs first slots ts with
  | case1 => cases h
  | case2 first slots ts rest' hk =>
    obtain ⟨t', hfinish, hpair⟩ := exists_of_map_eq_ok h
    cases hpair
    cases eq_cons_of_readNextKey hk
    refine .singleton ⟨rfl, rfl⟩ fun more => ?_
    have hend : readNextKey first (.endObject :: more) = .ok (none, more) := rfl
    rw [readMembers_of_end hend, hfinish]
    rfl
  | case3 => cases h
  | case4 first slots ts key ts' hk slots' rest' hm ih =>
    obtain ⟨used, u, rfl, -, hkey⟩ := frontOnly_readNextKey hk
    obtain ⟨used', u', rfl, -, hmember⟩ := frontOnly_readMember hfs hm
    obtain ⟨used'', u'', rfl, hu, hrest⟩ := ih h
    have hassoc (more : List Token) : used ++ u :: (used' ++ u' :: (used'' ++ u'' :: more)) =
        (used ++ u :: (used' ++ u' :: used'')) ++ u'' :: more := by simp
    refine ⟨_, u'', hassoc rest, hu, fun more => ?_⟩
    rw [← hassoc, readMembers_of_member (hkey _) (hmember _), hrest]

/-! ### Arrays -/

theorem eq_cons_of_readArrayEnd {rest : List Token} (h : readArrayEnd ts = .ok rest) :
    ts = .endArray :: rest := by
  unfold readArrayEnd at h
  split at h <;> cases h
  rfl

theorem readNextItem_cons {token : Token} (hne : token ≠ .endArray) (ts : List Token) :
    readNextItem true (token :: ts) = .ok (some (token :: ts)) ∧
      readNextItem false (.comma :: token :: ts) = .ok (some (token :: ts)) := by
  cases token <;> first | exact absurd rfl hne | exact ⟨rfl, rfl⟩

/-- Where an item is due, no more than its first token is looked at. -/
theorem exists_of_readNextItem {first : Bool} {ts' : List Token}
    (h : readNextItem first ts = .ok (some ts')) : ∃ before, ts = before ++ ts' ∧
      ∀ us, us.head? = ts'.head? → readNextItem first (before ++ us) = .ok (some us) := by
  cases first with
  | true =>
    obtain ⟨token, ts, rfl, hne⟩ : ∃ token us, ts = token :: us ∧ token ≠ .endArray := by
      match ts with
      | [] => cases h
      | token :: ts => exact ⟨token, ts, rfl, by rintro rfl; cases h⟩
    rw [(readNextItem_cons hne ts).1] at h
    cases h
    refine ⟨[], rfl, fun us hhead => ?_⟩
    obtain ⟨us, rfl⟩ := List.head?_eq_some_iff.mp hhead
    exact (readNextItem_cons hne us).1
  | false =>
    obtain ⟨token, ts, rfl, hne⟩ : ∃ token us, ts = .comma :: token :: us ∧ token ≠ .endArray := by
      cases ts with
      | nil => cases h
      | cons token ts =>
        cases token with
        | comma =>
          match ts with
          | [] => cases h
          | token :: ts => exact ⟨token, ts, rfl, by rintro rfl; cases h⟩
        | _ => cases h
    rw [(readNextItem_cons hne ts).2] at h
    cases h
    refine ⟨[.comma], rfl, fun us hhead => ?_⟩
    obtain ⟨us, rfl⟩ := List.head?_eq_some_iff.mp hhead
    exact (readNextItem_cons hne us).2

theorem head?_of_readNextItem {first : Bool} (h : readNextItem first ts = .ok none) :
    ts.head? = some .endArray := by
  unfold readNextItem at h
  split at h
  next => cases h
  next => rfl
  next =>
    split at h
    next => cases h
    next => split at h <;> cases h
  next => split at h <;> cases h

theorem frontOnly_readItems (hfs : fs.Prompt) {first : Bool} {t : τ}
    (h : readItems room fs first ts = .ok (t, rest)) :
    FrontOnly Token.IsSettled (readItems room fs first) (fun more => .ok (t, more)) ts rest := by
  induction fs generalizing first ts with
  | nil =>
    obtain ⟨rest', hend, hpair⟩ := exists_of_map_eq_ok h
    cases hpair
    cases eq_cons_of_readArrayEnd hend
    exact .singleton ⟨rfl, rfl⟩ fun _ => rfl
  | cons name codec dflt fs ih =>
    obtain ⟨hcodec, hfs⟩ := hfs
    unfold readItems at h
    split at h
    next => cases h
    next hitem =>
      cases dflt with
      | none => cases h
      | some a =>
        obtain ⟨⟨t', rest'⟩, hrest, hpair⟩ := exists_of_map_eq_ok h
        cases hpair
        refine (ih hfs hrest).imp fun us us' hhead hus => ?_
        rw [head?_of_readNextItem hitem] at hhead
        obtain ⟨us, rfl⟩ := List.head?_eq_some_iff.mp hhead
        simp only [readItems, readNextItem, hus, Except.map]
    next ts' hitem =>
      split at h
      next => cases h
      next a rest' hread =>
        obtain ⟨⟨t', rest''⟩, hrest, hpair⟩ := exists_of_map_eq_ok h
        cases hpair
        obtain ⟨before, rfl, hnext⟩ := exists_of_readNextItem hitem
        obtain ⟨used, u, rfl, -, hvalue⟩ := hcodec hread
        obtain ⟨used', u', rfl, hu, hitems⟩ := ih hfs hrest
        have hassoc (more : List Token) : before ++ (used ++ u :: (used' ++ u' :: more)) =
            (before ++ (used ++ u :: used')) ++ u' :: more := by simp
        refine ⟨_, u', hassoc rest'', hu, fun more => ?_⟩
        have hhead : (used ++ u :: (used' ++ u' :: more)).head? =
            (used ++ u :: (used' ++ u' :: rest'')).head? := by cases used <;> rfl
        rw [← hassoc]
        simp only [readItems, hnext _ hhead, hvalue, hitems, Except.map]

/-- A record rests on its own tokens, up to its bracket. -/
theorem Prompt.codec (hfs : fs.Prompt) : fs.codec.Prompt Token.IsSettled := by
  intro room ts t rest h
  simp only [Fields.codec, read] at h
  split at h
  next => cases h
  next =>
    split at h
    next => cases h
    next hroom =>
      refine (frontOnly_readMembers hfs h).cons fun us us' hus => ?_
      simp only [Fields.codec, read, if_neg hroom, hus]
  next =>
    split at h
    next => cases h
    next hroom =>
      refine (frontOnly_readItems hfs h).cons fun us us' hus => ?_
      simp only [Fields.codec, read, if_neg hroom, hus]
  next => cases h

end Fields

end ChatRelay.Json
