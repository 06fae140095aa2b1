import ChatRelay.Proofs.Frame.InPlace
import ChatRelay.Proofs.Frame.Stream

/-!
# The grammar of a buffer

What the decoder makes of a buffer is decided by the first version tag in it and by what stands
behind: a frame of an allowed length, a length that no frame can have, or less than a whole frame.
`decode_grammar` says which buffers lead to which outcome, and what stays in the buffer.
-/

namespace ChatRelay.Frame

variable {max : Nat} {src garbage payload rest tail : Bytes} {e : FrameError}

/-! ## The first version tag -/

/-- The first version tag of a buffer stands behind `garbage` and in front of `tail`. -/
def FirstTag (src garbage tail : Bytes) : Prop :=
  src = garbage ++ (versionTag ++ tail) ∧ ¬ versionTag <:+: garbage

theorem FirstTag.resync (h : FirstTag src garbage tail) : resync src = versionTag ++ tail := by
  obtain ⟨rfl, hgarbage⟩ := h
  exact resync_garbage_append hgarbage tail

/-- A buffer has a first version tag, unless it has none at all. -/
theorem exists_firstTag (h : versionTag <:+: src) : ∃ garbage tail, FirstTag src garbage tail := by
  induction src with
  | nil =>
    obtain ⟨s, t, hst⟩ := h
    simp [versionTag] at hst
  | cons v src ih =>
    by_cases hsrc : versionTag <+: v :: src
    · obtain ⟨tail, htail⟩ := hsrc
      exact ⟨[], tail, htail.symm, by decide⟩
    · have hlater : versionTag <:+: src := (List.infix_cons_iff.mp h).resolve_left hsrc
      obtain ⟨garbage, tail, hsplit, hgarbage⟩ := ih hlater
      refine ⟨v :: garbage, tail, by rw [hsplit, List.cons_append], ?_⟩
      intro hinfix
      rcases List.infix_cons_iff.mp hinfix with hpre | hinfix
      · exact hsrc (hsplit ▸ hpre.trans (List.prefix_append (v :: garbage) _))
      · exact hgarbage hinfix

theorem length_remnant_le (garbage : Bytes) : (remnant garbage).length ≤ 1 := by
  unfold remnant
  split <;> simp

/-- Two bytes are left of a buffer exactly if it has a version tag, and then they are its first
one. -/
theorem resync_eq_tag_iff :
    resync src = versionTag ++ tail ↔ ∃ garbage, FirstTag src garbage tail := by
  constructor
  · intro h
    by_cases htag : versionTag <:+: src
    · obtain ⟨garbage, tail', hfirst⟩ := exists_firstTag htag
      rw [hfirst.resync] at h
      obtain rfl := List.append_cancel_left h
      exact ⟨garbage, hfirst⟩
    · have hle := length_remnant_le src
      rw [← resync_of_not_infix htag, h, List.length_append] at hle
      simp only [versionTag, List.length_cons, List.length_nil] at hle
      omega
  · rintro ⟨garbage, hfirst⟩
    exact hfirst.resync

/-! ## Behind the tag -/

/-- What stands behind a version tag may still become a frame of an allowed length, and is none
yet. -/
def Unfinished (max : Nat) (tail : Bytes) : Prop :=
  tail.length < 2 ∨ ∃ high low body, tail = high :: low :: body ∧
    headerSize ≤ lengthOf high low ∧ lengthOf high low ≤ max ∧
    body.length < lengthOf high low - headerSize

theorem unpack_tag_eq_none_iff :
    unpack max (versionTag ++ tail) = .ok none ↔ Unfinished max tail := by
  match tail with
  | [] => exact ⟨fun _ => .inl (by decide), fun _ => rfl⟩
  | [high] => exact ⟨fun _ => .inl (by simp), fun _ => rfl⟩
  | high :: low :: body =>
    change unpack max (firstTag :: secondTag :: high :: low :: body) = _ ↔ _
    rw [unpack_cons]
    constructor
    · intro h
      cases hf : headerFault max firstTag secondTag high low with
      | some e =>
        rw [hf] at h
        cases h
      | none =>
        obtain ⟨-, -, hshort, hlarge⟩ := headerFault_eq_none.mp hf
        simp only [hf] at h
        split at h
        next hbody => exact .inr ⟨high, low, body, rfl, hshort, hlarge, hbody⟩
        next => cases h
    · rintro (hlength | ⟨high, low, body, hcons, hshort, hlarge, hbody⟩)
      · simp only [List.length_cons] at hlength
        omega
      · obtain ⟨rfl, rfl, rfl⟩ : _ ∧ _ ∧ _ := by simpa using hcons
        rw [headerFault_eq_none.mpr ⟨rfl, rfl, hshort, hlarge⟩]
        exact if_pos hbody

/-- Behind a version tag only the length can be wrong. -/
theorem unpack_tag_eq_error_iff : unpack max (versionTag ++ tail) = .error e ↔
    ∃ high low body, tail = high :: low :: body ∧
      (lengthOf high low < headerSize ∧ e = .lengthTooShort (lengthOf high low) ∨
        headerSize ≤ lengthOf high low ∧ max < lengthOf high low ∧
          e = .tooLarge (lengthOf high low) max) := by
  have hfault : ∀ high low, headerFault max firstTag secondTag high low = some e ↔
      (lengthOf high low < headerSize ∧ e = .lengthTooShort (lengthOf high low) ∨
        headerSize ≤ lengthOf high low ∧ max < lengthOf high low ∧
          e = .tooLarge (lengthOf high low) max) := by
    intro high low
    rw [headerFault, if_pos ⟨rfl, rfl⟩]
    by_cases hshort : lengthOf high low < headerSize
    · simp [hshort, Nat.not_le.mpr hshort, eq_comm]
    · by_cases hlarge : max < lengthOf high low
      · simp [hshort, hlarge, Nat.le_of_not_lt hshort, eq_comm]
      · simp [hshort, hlarge]
  rw [unpack_eq_error_iff]
  constructor
  · rintro ⟨v, w, high, low, body, hbuffer, hf⟩
    obtain ⟨rfl, rfl, rfl⟩ : firstTag = v ∧ secondTag = w ∧ tail = high :: low :: body := by
      simpa [versionTag] using hbuffer
    exact ⟨high, low, body, rfl, (hfault high low).mp hf⟩
  · rintro ⟨high, low, body, rfl, h⟩
    exact ⟨firstTag, secondTag, high, low, body, rfl, (hfault high low).mpr h⟩

namespace Decoder

variable {d : Decoder}

/-- Decoding is to skip to a version tag and to take a frame there. -/
theorem decode_eq_unpackInPlace (d : Decoder) (buffer : Bytes) :
    d.decode buffer = unpackInPlace d.max (resync buffer) := by
  rw [unpackInPlace_eq]
  rfl

/-! ## Outcomes -/

/-- A payload is taken exactly where its frame stands at the first version tag. -/
theorem decode_eq_payload_iff_frame : d.decode src = (.ok (some payload), rest) ↔
    (∃ garbage, FirstTag src garbage
      (lengthBytes (headerSize + payload.length) ++ payload ++ rest)) ∧
      headerSize + payload.length ≤ d.max := by
  have hencodable : headerSize + payload.length ≤ min d.max maxEncodable ↔
      headerSize + payload.length ≤ d.max :=
    ⟨fun h => (Nat.le_min.mp h).1, fun h => Nat.le_min.mpr ⟨h, Nat.le_trans h d.le_maxEncodable⟩⟩
  have hframe : frame payload ++ rest =
      versionTag ++ (lengthBytes (headerSize + payload.length) ++ payload ++ rest) := rfl
  rw [decode_eq_payload_iff, unpack_eq_payload_iff, hencodable, hframe, resync_eq_tag_iff]

/-- A buffer is refused exactly for the length behind its first version tag, and kept from this tag
on. -/
theorem decode_eq_error_iff_length : d.decode src = (.error e, rest) ↔
    ∃ garbage high low body, FirstTag src garbage (high :: low :: body) ∧
      rest = versionTag ++ high :: low :: body ∧
      (lengthOf high low < headerSize ∧ e = .lengthTooShort (lengthOf high low) ∨
        d.max < lengthOf high low ∧ e = .tooLarge (lengthOf high low) d.max) := by
  rw [decode_eq_error_iff]
  constructor
  · rintro ⟨hu, rfl⟩
    obtain ⟨v, w, high, low, body, hbuffer, hf⟩ := unpack_eq_error_iff.mp hu
    by_cases htag : versionTag <:+: src
    · obtain ⟨garbage, tail, hfirst⟩ := exists_firstTag htag
      rw [hfirst.resync] at hu ⊢
      obtain ⟨high, low, body, rfl, hlength⟩ := unpack_tag_eq_error_iff.mp hu
      exact ⟨garbage, high, low, body, hfirst, rfl, hlength.imp_right And.right⟩
    · have hle := length_remnant_le src
      rw [← resync_of_not_infix htag, hbuffer] at hle
      simp only [List.length_cons] at hle
      omega
  · rintro ⟨garbage, high, low, body, hfirst, rfl, hlength⟩
    have hheader := d.headerSize_le
    rw [hfirst.resync]
    refine ⟨unpack_tag_eq_error_iff.mpr ⟨high, low, body, rfl, ?_⟩, rfl⟩
    exact hlength.imp_right fun h => ⟨Nat.le_of_lt (Nat.lt_of_le_of_lt hheader h.1), h⟩

/-- The decoder waits where there is no version tag, or less than a frame behind the first one; what
cannot become part of a frame is gone. -/
theorem decode_eq_none_iff_unfinished : d.decode src = (.ok none, rest) ↔
    ¬ versionTag <:+: src ∧ rest = remnant src ∨
    ∃ garbage tail, FirstTag src garbage tail ∧ rest = versionTag ++ tail ∧
      Unfinished d.max tail := by
  rw [decode_eq_none_iff]
  constructor
  · rintro ⟨hu, rfl⟩
    by_cases htag : versionTag <:+: src
    · right
      obtain ⟨garbage, tail, hfirst⟩ := exists_firstTag htag
      rw [hfirst.resync] at hu ⊢
      exact ⟨garbage, tail, hfirst, rfl, unpack_tag_eq_none_iff.mp hu⟩
    · exact .inl ⟨htag, resync_of_not_infix htag⟩
  · rintro (⟨htag, rfl⟩ | ⟨garbage, tail, hfirst, rfl, hunfinished⟩)
    · exact decode_eq_none_iff.mp (decode_garbage htag)
    · rw [hfirst.resync]
      exact ⟨unpack_tag_eq_none_iff.mpr hunfinished, rfl⟩

/-- The decoder accepts exactly the frames: a payload is taken if its frame stands at the first
version tag of the buffer, the buffer is refused for the length there and for nothing else, and in
all other cases the decoder waits. It keeps the buffer from the first tag on, or a last byte that
may begin one. Where there is no payload to take, `unpack` takes nothing. -/
theorem decode_grammar (limit : Nat) (src : Bytes) :
    let d := new limit
    (∀ payload rest, d.decode src = (.ok (some payload), rest) ↔
      (∃ garbage, src = garbage ++
          (versionTag ++ (lengthBytes (headerSize + payload.length) ++ payload ++ rest)) ∧
        ¬ versionTag <:+: garbage) ∧
      headerSize + payload.length ≤ d.max) ∧
    (∀ e rest, d.decode src = (.error e, rest) ↔
      ∃ garbage high low body, FirstTag src garbage (high :: low :: body) ∧
        rest = versionTag ++ high :: low :: body ∧
        (lengthOf high low < headerSize ∧ e = .lengthTooShort (lengthOf high low) ∨
          d.max < lengthOf high low ∧ e = .tooLarge (lengthOf high low) d.max)) ∧
    (∀ v w rest, d.decode src ≠ (.error (.invalidVersion v w), rest)) ∧
    (∀ rest, d.decode src = (.ok none, rest) ↔
      ¬ versionTag <:+: src ∧ rest = remnant src ∨
      ∃ garbage tail, FirstTag src garbage tail ∧ rest = versionTag ++ tail ∧
        Unfinished d.max tail) ∧
    d.decode src = unpackInPlace d.max (resync src) ∧
    ∀ max, match unpackInPlace max src with
      | (.ok (some payload), rest) => src = frame payload ++ rest
      | (_, rest) => rest = src := by
  intro d
  refine ⟨fun _ _ => decode_eq_payload_iff_frame, fun _ _ => decode_eq_error_iff_length, ?_,
    fun _ => decode_eq_none_iff_unfinished, d.decode_eq_unpackInPlace src, fun max => ?_⟩
  · intro v w rest h
    obtain ⟨_, _, _, _, -, -, hlength⟩ := decode_eq_error_iff_length.mp h
    rcases hlength with ⟨-, he⟩ | ⟨-, he⟩ <;> cases he
  · rw [unpackInPlace_eq]
    cases hu : unpack max src with
    | error e => rfl
    | ok taken =>
      cases taken with
      | none => rfl
      | some frame => exact (unpack_eq_payload_iff.mp hu).1

end Decoder

end ChatRelay.Frame
