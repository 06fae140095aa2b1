import ChatRelay.Proofs.Frame.Header

/-!
# Buffers that are changed in place

A frame is written behind what a buffer holds part by part: the tag, the length, which is cut to
sixteen bits, and the payload. It is taken from the front of a buffer in two parts, the header
first. `packInPlace` and `unpackInPlace` do it in these steps. A frame that is refused leaves the
buffer as it is, when writing and when reading, and so does one that is not there as a whole.
-/

namespace ChatRelay.Frame

/-! ## Writing -/

/-- Write a frame behind what a buffer holds; the second part is the buffer afterwards. -/
def packInPlace (max : Nat) (payload buffer : Bytes) : Except FrameError Unit × Bytes :=
  let total := headerSize + payload.length
  let limit := min max maxEncodable
  if limit < total then (.error (.tooLarge total limit), buffer)
  else
    let buffer := buffer ++ versionTag
    let buffer := buffer ++ lengthBytes (UInt16.ofNat total).toNat
    (.ok (), buffer ++ payload)

/-- A frame is written whole or not at all, and its length is never cut. -/
theorem packInPlace_eq (max : Nat) (payload buffer : Bytes) : packInPlace max payload buffer =
    match pack max payload with
    | .ok framed => (.ok (), buffer ++ framed)
    | .error e => (.error e, buffer) := by
  unfold packInPlace pack
  by_cases hlarge : min max maxEncodable < headerSize + payload.length
  · simp only [if_pos hlarge]
  · have hencodable : headerSize + payload.length < 2 ^ 16 := by
      have hle : headerSize + payload.length ≤ maxEncodable :=
        Nat.le_trans (Nat.le_of_not_lt hlarge) (Nat.min_le_right max maxEncodable)
      exact Nat.lt_succ_of_le hle
    have hlength : (UInt16.ofNat (headerSize + payload.length)).toNat =
        headerSize + payload.length := by
      rw [UInt16.toNat_ofNat', Nat.mod_eq_of_lt hencodable]
    simp only [if_neg hlarge, hlength, List.append_assoc]
    rfl

/-! ## Reading -/

/-- Take a frame from the front of a buffer, first its header and then its payload; the second part
is the buffer afterwards. -/
def unpackInPlace (max : Nat) (buffer : Bytes) : Except FrameError (Option Bytes) × Bytes :=
  match buffer with
  | v :: w :: high :: low :: _ =>
    if [v, w] ≠ versionTag then (.error (.invalidVersion v w), buffer)
    else
      let total := lengthOf high low
      if total < headerSize then (.error (.lengthTooShort total), buffer)
      else if max < total then (.error (.tooLarge total max), buffer)
      else if buffer.length < total then (.ok none, buffer)
      else
        let buffer := buffer.drop headerSize
        let payload := buffer.take (total - headerSize)
        (.ok (some payload), buffer.drop (total - headerSize))
  | _ => (.ok none, buffer)

/-- Only a payload is taken out of the buffer, and with it its header. -/
theorem unpackInPlace_eq (max : Nat) (buffer : Bytes) : unpackInPlace max buffer =
    match unpack max buffer with
    | .ok (some (payload, rest)) => (.ok (some payload), rest)
    | .ok none => (.ok none, buffer)
    | .error e => (.error e, buffer) := by
  unfold unpackInPlace
  split
  next v w high low tail =>
    rw [unpack_cons, headerFault]
    by_cases htag : v = firstTag ∧ w = secondTag
    · have htag' : ¬ [v, w] ≠ versionTag := by simp [versionTag, htag]
      rw [if_neg htag', if_pos htag]
      by_cases hshort : lengthOf high low < headerSize
      · simp only [if_pos hshort]
      · by_cases hlarge : max < lengthOf high low
        · simp only [if_neg hshort, if_pos hlarge]
        · have hlength : (v :: w :: high :: low :: tail).length < lengthOf high low ↔
              tail.length < lengthOf high low - headerSize := by
            simp only [List.length_cons, headerSize]
            omega
          simp only [if_neg hshort, if_neg hlarge, hlength]
          by_cases hbody : tail.length < lengthOf high low - headerSize
          · simp only [if_pos hbody]
          · simp only [if_neg hbody, List.splitAt_eq]
            rfl
    · have htag' : [v, w] ≠ versionTag := by
        simpa [versionTag] using htag
      rw [if_pos htag', if_neg htag]
  next hshort =>
    have hnone : unpack max buffer = .ok none := by
      unfold unpack
      split
      next v w high low tail => exact absurd rfl (hshort v w high low tail)
      next => rfl
    rw [hnone]

end ChatRelay.Frame
