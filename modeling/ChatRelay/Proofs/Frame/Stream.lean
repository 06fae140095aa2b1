import ChatRelay.Proofs.Frame.Chunks

/-!
# Frames between garbage

A stream as a peer may send it: frames, with bytes that belong to none in front of each and at the
end. As long as no garbage holds a version tag, the decoder finds every frame, takes each payload
whole and never looks for a tag inside one, so that a payload may hold anything. Of all garbage only
a last byte that may begin the next tag is kept.
-/

namespace ChatRelay.Frame

variable {payload garbage : Bytes}

/-- Garbage, and a payload whose frame stands behind it. -/
structure Stretch where
  garbage : Bytes
  payload : Bytes
  deriving DecidableEq, Repr

namespace Decoder

variable {d : Decoder}

/-- The stream of these stretches and of garbage at its end, if all payloads can be framed. -/
def stream (d : Decoder) (trailing : Bytes) : List Stretch → Except FrameError Bytes
  | [] => .ok trailing
  | x :: xs => do
    let framed ← d.encode x.payload
    let later ← d.stream trailing xs
    return x.garbage ++ (framed ++ later)

/-- The frame of a payload that is not too long has a length that can be written and is allowed. -/
theorem length_frame_le (h : payload.length ≤ d.maxPayload) :
    headerSize + payload.length ≤ min d.max maxEncodable := by
  have hheader := d.headerSize_le
  have hencodable := d.le_maxEncodable
  rw [maxPayload] at h
  omega

theorem encode_of_le (h : payload.length ≤ d.maxPayload) :
    d.encode payload = .ok (frame payload) := by
  rw [encode, pack]
  exact if_neg (Nat.not_lt.mpr (length_frame_le h))

/-- A frame behind garbage is taken, and nothing behind it is touched. -/
theorem decode_garbage_frame (hgarbage : ¬ versionTag <:+: garbage)
    (hpayload : payload.length ≤ d.maxPayload) (rest : Bytes) :
    d.decode (garbage ++ (frame payload ++ rest)) = (.ok (some payload), rest) := by
  have htag : resync (garbage ++ (frame payload ++ rest)) = frame payload ++ rest :=
    resync_garbage_append hgarbage _
  rw [decode_eq_payload_iff, htag]
  exact unpack_eq_payload_iff.mpr ⟨rfl, length_frame_le hpayload⟩

theorem decode_garbage (hgarbage : ¬ versionTag <:+: garbage) :
    d.decode garbage = (.ok none, remnant garbage) := by
  rw [decode_eq_none_iff, resync_of_not_infix hgarbage]
  refine ⟨?_, rfl⟩
  unfold remnant
  split <;> rfl

/-- Every payload of at most the agreed size is framed, and a stream of such frames, with garbage
that holds no version tag between them, yields the payloads in order, no error, and at most a last
byte that may begin another tag. -/
theorem decodeAll_stream (limit : Nat) (stretches : List Stretch) (trailing : Bytes)
    (hpayload : ∀ x ∈ stretches, x.payload.length ≤ (new limit).maxPayload)
    (hgarbage : ∀ x ∈ stretches, ¬ versionTag <:+: x.garbage)
    (htrailing : ¬ versionTag <:+: trailing) :
    ∃ bytes, (new limit).stream trailing stretches = .ok bytes ∧ (new limit).decodeAll bytes =
      ⟨stretches.map Stretch.payload, none, remnant trailing⟩ := by
  induction stretches with
  | nil =>
    refine ⟨trailing, rfl, ?_⟩
    rw [decodeAll_eq, decode_garbage htrailing]
    rfl
  | cons x xs ih =>
    rw [List.forall_mem_cons] at hpayload hgarbage
    obtain ⟨later, hlater, hyield⟩ := ih hpayload.2 hgarbage.2
    have hframed : (new limit).encode x.payload = .ok (frame x.payload) := encode_of_le hpayload.1
    refine ⟨x.garbage ++ (frame x.payload ++ later), ?_, ?_⟩
    · rw [stream, hframed, hlater]
      rfl
    · rw [decodeAll_eq, decode_garbage_frame hgarbage.1 hpayload.1]
      show ((new limit).decodeAll later).after [x.payload] = _
      rw [hyield]
      rfl

/-- A payload that is itself a frame, behind a byte that looks like the begin of one, and an empty
payload behind garbage; the stream breaks off where another tag may begin. -/
theorem decodeAll_stream_vv1 :
    let stretches : List Stretch :=
      [⟨[firstTag], frame [secondTag]⟩, ⟨[secondTag, firstTag, firstTag], []⟩]
    (∀ x ∈ stretches, x.payload.length ≤ (new 9).maxPayload) ∧
      (∀ x ∈ stretches, ¬ versionTag <:+: x.garbage) ∧ ¬ versionTag <:+: [secondTag, firstTag] ∧
      ∃ bytes, (new 9).stream [secondTag, firstTag] stretches = .ok bytes ∧
        (new 9).decodeAll bytes = ⟨[frame [secondTag], []], none, [firstTag]⟩ := by
  intro stretches
  have hpayload : ∀ x ∈ stretches, x.payload.length ≤ (new 9).maxPayload := by decide
  have hgarbage : ∀ x ∈ stretches, ¬ versionTag <:+: x.garbage := by decide
  have htrailing : ¬ versionTag <:+: [secondTag, firstTag] := by decide
  exact ⟨hpayload, hgarbage, htrailing, decodeAll_stream 9 stretches _ hpayload hgarbage htrailing⟩

end Decoder

end ChatRelay.Frame
