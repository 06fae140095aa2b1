import ChatRelay.Frame.Decoder

/-!
# What a buffer begins with

`unpack` decides by the first four bytes alone whether a buffer is refused, and by the length of the
buffer alone whether it has to wait. Where it takes a payload, the buffer begins with the frame of
this payload; and a frame that is not too long is taken, whatever the payload holds and whatever
stands behind it.

`resync` moves to the first version tag. Garbage in front of a tag is skipped as a whole, also where
it ends with the byte that begins the tag.
-/

namespace ChatRelay.Frame

variable {max : Nat} {buffer payload rest garbage : Bytes} {e : FrameError}

/-- The two bytes that every frame begins with. -/
def versionTag : Bytes := [firstTag, secondTag]

/-! ## The header -/

/-- What is wrong with the first four bytes of a buffer. -/
def headerFault (max : Nat) (v w high low : UInt8) : Option FrameError :=
  if v = firstTag ∧ w = secondTag then
    if lengthOf high low < headerSize then some (.lengthTooShort (lengthOf high low))
    else if max < lengthOf high low then some (.tooLarge (lengthOf high low) max)
    else none
  else some (.invalidVersion v w)

theorem unpack_cons (max : Nat) (v w high low : UInt8) (tail : Bytes) :
    unpack max (v :: w :: high :: low :: tail) =
      match headerFault max v w high low with
      | some e => .error e
      | none =>
        if tail.length < lengthOf high low - headerSize then .ok none
        else .ok (some (tail.splitAt (lengthOf high low - headerSize))) := by
  unfold headerFault
  by_cases htag : v = firstTag ∧ w = secondTag
  · by_cases hshort : lengthOf high low < headerSize
    · simp only [unpack, if_pos htag, if_pos hshort]
    · by_cases hlarge : max < lengthOf high low
      · simp only [unpack, if_pos htag, if_neg hshort, if_pos hlarge]
      · simp only [unpack, if_pos htag, if_neg hshort, if_neg hlarge]
  · simp only [unpack, if_neg htag]

theorem headerFault_eq_none {v w high low : UInt8} : headerFault max v w high low = none ↔
    v = firstTag ∧ w = secondTag ∧ headerSize ≤ lengthOf high low ∧ lengthOf high low ≤ max := by
  unfold headerFault
  constructor
  · intro h
    split at h
    next htag =>
      split at h
      next => cases h
      next hshort =>
        split at h
        next => cases h
        next hlarge => exact ⟨htag.1, htag.2, Nat.not_lt.mp hshort, Nat.not_lt.mp hlarge⟩
    next => cases h
  · rintro ⟨hv, hw, hshort, hlarge⟩
    rw [if_pos ⟨hv, hw⟩, if_neg (Nat.not_lt.mpr hshort), if_neg (Nat.not_lt.mpr hlarge)]

/-- A buffer is not decided about before it has a header. -/
theorem exists_header_of_unpack (h : unpack max buffer ≠ .ok none) :
    ∃ v w high low tail, buffer = v :: w :: high :: low :: tail := by
  unfold unpack at h
  split at h
  next v w high low tail => exact ⟨v, w, high, low, tail, rfl⟩
  next => exact absurd rfl h

/-- A buffer is refused for its first four bytes. -/
theorem unpack_eq_error_iff : unpack max buffer = .error e ↔ ∃ v w high low tail,
    buffer = v :: w :: high :: low :: tail ∧ headerFault max v w high low = some e := by
  constructor
  · intro h
    have hdecided : unpack max buffer ≠ .ok none := by
      rw [h]
      nofun
    obtain ⟨v, w, high, low, tail, rfl⟩ := exists_header_of_unpack hdecided
    refine ⟨v, w, high, low, tail, rfl, ?_⟩
    rw [unpack_cons] at h
    cases hf : headerFault max v w high low with
    | some e' =>
      rw [hf] at h
      exact congrArg some (Except.error.inj h)
    | none =>
      simp only [hf] at h
      split at h <;> cases h
  · rintro ⟨v, w, high, low, tail, rfl, hf⟩
    rw [unpack_cons, hf]

/-! ## Whole frames -/

theorem lengthOf_le (high low : UInt8) : lengthOf high low ≤ maxEncodable := by
  have hhigh := high.toNat_lt
  have hlow := low.toNat_lt
  simp only [lengthOf, maxEncodable]
  omega

theorem lengthBytes_lengthOf (high low : UInt8) :
    lengthBytes (lengthOf high low) = [high, low] := by
  have hhigh := high.toNat_lt
  have hlow := low.toNat_lt
  have hdiv : (lengthOf high low) / 256 = high.toNat := by
    rw [lengthOf]
    omega
  have hmod : UInt8.ofNat (lengthOf high low) = low := by
    apply UInt8.toNat_inj.mp
    rw [UInt8.toNat_ofNat', lengthOf]
    omega
  rw [lengthBytes, hdiv, hmod, UInt8.ofNat_toNat]

/-- A payload is taken exactly from the front of a buffer that begins with its frame, if the frame
is not too long. -/
theorem unpack_eq_payload_iff : unpack max buffer = .ok (some (payload, rest)) ↔
    buffer = frame payload ++ rest ∧ headerSize + payload.length ≤ min max maxEncodable := by
  constructor
  · intro h
    have hdecided : unpack max buffer ≠ .ok none := by
      rw [h]
      nofun
    obtain ⟨v, w, high, low, tail, rfl⟩ := exists_header_of_unpack hdecided
    rw [unpack_cons] at h
    cases hf : headerFault max v w high low with
    | some e =>
      rw [hf] at h
      cases h
    | none =>
      obtain ⟨rfl, rfl, hshort, hlarge⟩ := headerFault_eq_none.mp hf
      simp only [hf] at h
      split at h
      next => cases h
      next hwhole =>
        have hsplit : tail.splitAt (lengthOf high low - headerSize) = (payload, rest) :=
          Option.some.inj (Except.ok.inj h)
        rw [List.splitAt_eq, Prod.mk.injEq] at hsplit
        obtain ⟨hpayload, hrest⟩ := hsplit
        have hlength : headerSize + payload.length = lengthOf high low := by
          rw [← hpayload, List.length_take]
          omega
        refine ⟨?_, ?_⟩
        · rw [frame, hlength, lengthBytes_lengthOf, ← hpayload, ← hrest]
          simp only [List.cons_append, List.nil_append, List.take_append_drop]
        · rw [hlength]
          exact Nat.le_min.mpr ⟨hlarge, lengthOf_le high low⟩
  · rintro ⟨rfl, hle⟩
    obtain ⟨hmax, hencodable⟩ := Nat.le_min.mp hle
    have hlength := lengthOf_lengthBytes hencodable
    have hfault : headerFault max firstTag secondTag
        (UInt8.ofNat ((headerSize + payload.length) / 256))
        (UInt8.ofNat (headerSize + payload.length)) = none := by
      apply headerFault_eq_none.mpr
      rw [hlength]
      exact ⟨rfl, rfl, Nat.le_add_right _ _, hmax⟩
    show unpack max (firstTag :: secondTag :: _ :: _ :: (payload ++ rest)) = _
    rw [unpack_cons, hfault, hlength, Nat.add_sub_cancel_left]
    simp

/-! ## The next version tag -/

@[simp] theorem resync_tag (rest : Bytes) :
    resync (firstTag :: secondTag :: rest) = firstTag :: secondTag :: rest := by
  rw [resync, if_pos ⟨rfl, rfl⟩]

/-- What is skipped can be skipped before more bytes come. -/
theorem resync_append (buffer more : Bytes) :
    resync (buffer ++ more) = resync (resync buffer ++ more) := by
  fun_induction resync buffer with
  | case1 => rfl
  | case2 => rfl
  | case3 v hv =>
    -- A last byte that cannot begin a tag is skipped with the first byte that follows it.
    cases more with
    | nil =>
      show resync [v] = []
      simp only [resync, if_neg hv]
    | cons w more =>
      show resync (v :: w :: more) = resync (w :: more)
      rw [resync, if_neg fun h => hv h.1]
  | case4 => rfl
  | case5 v w rest htag ih =>
    show resync (v :: w :: (rest ++ more)) = _
    rw [resync, if_neg htag]
    exact ih

/-- Where two bytes are left, they are a version tag, and nothing is skipped any more. -/
theorem resync_append_of_lt (h : 1 < (resync buffer).length) (more : Bytes) :
    resync (buffer ++ more) = resync buffer ++ more := by
  fun_induction resync buffer with
  | case1 | case2 | case3 => simp at h
  | case4 v w rest htag =>
    obtain ⟨rfl, rfl⟩ := htag
    exact resync_tag (rest ++ more)
  | case5 v w rest htag ih =>
    show resync (v :: w :: (rest ++ more)) = _
    rw [resync, if_neg htag]
    exact ih h

/-- What is left of garbage: a last byte that may begin a version tag. -/
def remnant (garbage : Bytes) : Bytes :=
  if garbage.getLast? = some firstTag then [firstTag] else []

/-- Garbage without a version tag is skipped, but for a last byte that may begin one. -/
theorem resync_of_not_infix (h : ¬ versionTag <:+: garbage) :
    resync garbage = remnant garbage := by
  fun_induction resync garbage with
  | case1 => rfl
  | case2 => rfl
  | case3 v hv =>
    have hlast : ([v] : Bytes).getLast? ≠ some firstTag := fun he => hv (Option.some.inj he)
    rw [remnant, if_neg hlast]
  | case4 v w rest htag =>
    obtain ⟨rfl, rfl⟩ := htag
    exact absurd ⟨[], rest, rfl⟩ h
  | case5 v w rest htag ih =>
    rw [remnant, List.getLast?_cons_cons]
    exact ih fun hinfix => h (List.infix_cons hinfix)

/-- The first version tag behind garbage without one is found. -/
theorem resync_garbage_append (h : ¬ versionTag <:+: garbage) (rest : Bytes) :
    resync (garbage ++ firstTag :: secondTag :: rest) = firstTag :: secondTag :: rest := by
  rw [resync_append, resync_of_not_infix h, remnant]
  split
  next =>
    -- The last byte of the garbage and the tag behind it: the byte is no part of a tag.
    show resync (firstTag :: firstTag :: secondTag :: rest) = _
    rw [resync, if_neg (by decide)]
    exact resync_tag rest
  next => exact resync_tag rest

end ChatRelay.Frame
