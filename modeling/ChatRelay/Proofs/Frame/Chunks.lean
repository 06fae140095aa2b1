import ChatRelay.Proofs.Frame.Header

/-!
# Streams in pieces

A transport cuts a stream where it likes: between the two bytes of a version tag, inside a length,
in the middle of a payload, or in garbage. The decoder skips garbage as soon as it sees it, so the
buffer does not keep the stream as it came, and a later piece meets less than what was received.

Three facts about one call of `decode` show that this does not matter. A frame that was taken, and
an error that was met, do not depend on the bytes behind; and a buffer that holds no whole frame
may be replaced by what `decode` leaves of it, whatever comes next. From these, `decodeAll_append`
says what more bytes do to everything that a buffer yields, and `feed_flatten` that a stream in
pieces yields what the whole stream does.
-/

namespace ChatRelay.Frame.Decoder

variable {d : Decoder} {buffer payload rest : Bytes} {e : FrameError}

/-! ## One frame -/

theorem decode_eq_payload_iff : d.decode buffer = (.ok (some payload), rest) ↔
    unpack d.max (resync buffer) = .ok (some (payload, rest)) := by
  unfold decode
  dsimp only
  split
  next hu => simp [hu]
  next hu => simp [hu]
  next hu => simp [hu]

theorem decode_eq_none_iff : d.decode buffer = (.ok none, rest) ↔
    unpack d.max (resync buffer) = .ok none ∧ rest = resync buffer := by
  unfold decode
  dsimp only
  split
  next hu => simp [hu]
  next hu => simp [hu, eq_comm]
  next hu => simp [hu]

theorem decode_eq_error_iff : d.decode buffer = (.error e, rest) ↔
    unpack d.max (resync buffer) = .error e ∧ rest = resync buffer := by
  unfold decode
  dsimp only
  split
  next hu => simp [hu]
  next hu => simp [hu]
  next hu => simp [hu, eq_comm]

/-- A buffer that is decided about has been brought to a version tag. -/
theorem resync_append_of_decided (h : unpack d.max (resync buffer) ≠ .ok none) (more : Bytes) :
    resync (buffer ++ more) = resync buffer ++ more := by
  obtain ⟨v, w, high, low, tail, hheader⟩ := exists_header_of_unpack h
  apply resync_append_of_lt
  rw [hheader]
  simp only [List.length_cons]
  omega

/-- A frame is taken whatever follows it. -/
theorem decode_append_of_payload (h : d.decode buffer = (.ok (some payload), rest))
    (more : Bytes) : d.decode (buffer ++ more) = (.ok (some payload), rest ++ more) := by
  rw [decode_eq_payload_iff] at h ⊢
  have hdecided : unpack d.max (resync buffer) ≠ .ok none := by
    rw [h]
    nofun
  obtain ⟨hframe, hle⟩ := unpack_eq_payload_iff.mp h
  rw [resync_append_of_decided hdecided, hframe, List.append_assoc]
  exact unpack_eq_payload_iff.mpr ⟨rfl, hle⟩

/-- An error is met whatever follows. -/
theorem decode_append_of_error (h : d.decode buffer = (.error e, rest)) (more : Bytes) :
    d.decode (buffer ++ more) = (.error e, rest ++ more) := by
  obtain ⟨hu, rfl⟩ := decode_eq_error_iff.mp h
  have hdecided : unpack d.max (resync buffer) ≠ .ok none := by
    rw [hu]
    nofun
  obtain ⟨v, w, high, low, tail, hheader, hfault⟩ := unpack_eq_error_iff.mp hu
  rw [decode_eq_error_iff, resync_append_of_decided hdecided]
  refine ⟨unpack_eq_error_iff.mpr ⟨v, w, high, low, tail ++ more, ?_, hfault⟩, rfl⟩
  rw [hheader]
  rfl

/-- Where no frame can be taken yet, what was skipped may be forgotten. -/
theorem decode_append_of_none (h : d.decode buffer = (.ok none, rest)) (more : Bytes) :
    d.decode (buffer ++ more) = d.decode (rest ++ more) := by
  obtain ⟨-, rfl⟩ := decode_eq_none_iff.mp h
  rw [decode, decode, resync_append]

/-- Where no frame can be taken, none can be taken from what is left. -/
theorem decode_rest_of_none (h : d.decode buffer = (.ok none, rest)) :
    d.decode rest = (.ok none, rest) := by
  have hsame := decode_append_of_none h []
  rw [List.append_nil, List.append_nil] at hsame
  rw [← hsame, h]

/-! ## All frames -/

/-- What is yielded in all if these payloads came before. -/
def Yield.after (y : Yield) (payloads : List Bytes) : Yield :=
  { y with payloads := payloads ++ y.payloads }

@[simp] theorem Yield.after_nil (y : Yield) : y.after [] = y := rfl

theorem Yield.after_after (y : Yield) (earlier later : List Bytes) :
    (y.after later).after earlier = y.after (earlier ++ later) := by
  rw [after, after, after, List.append_assoc]

/-- One call of `decode` and what remains to be done. -/
theorem decodeAll_eq (d : Decoder) (buffer : Bytes) : d.decodeAll buffer =
    match d.decode buffer with
    | (.ok (some payload), rest) => (d.decodeAll rest).after [payload]
    | (.ok none, rest) => ⟨[], none, rest⟩
    | (.error e, rest) => ⟨[], some e, rest⟩ := by
  rcases hd : d.decode buffer with ⟨outcome, rest⟩
  rw [decodeAll]
  split
  next payload hp =>
    rw [hd] at hp ⊢
    subst hp
    rfl
  next hp =>
    rw [hd] at hp ⊢
    subst hp
    rfl
  next e hp =>
    rw [hd] at hp ⊢
    subst hp
    rfl

/-- What is yielded in all if more bytes come behind a buffer that has yielded `y`. -/
def resume (d : Decoder) (y : Yield) (more : Bytes) : Yield :=
  match y.error with
  | some _ => { y with rest := y.rest ++ more }
  | none => (d.decodeAll (y.rest ++ more)).after y.payloads

theorem resume_after (d : Decoder) (y : Yield) (payloads : List Bytes) (more : Bytes) :
    d.resume (y.after payloads) more = (d.resume y more).after payloads := by
  unfold resume
  rw [show (y.after payloads).error = y.error from rfl]
  cases y.error with
  | some e => rfl
  | none => exact (Yield.after_after _ payloads y.payloads).symm

/-- Decoding may stop anywhere and go on when more bytes have come. -/
theorem decodeAll_append (d : Decoder) (buffer more : Bytes) :
    d.decodeAll (buffer ++ more) = d.resume (d.decodeAll buffer) more := by
  induction h : buffer.length using Nat.strongRecOn generalizing buffer with
  | _ n ih =>
    subst h
    match hd : d.decode buffer with
    | (.ok (some payload), rest) =>
      have hshorter : rest.length < buffer.length := by
        have hlt := length_decode_lt (congrArg Prod.fst hd)
        rwa [hd] at hlt
      have hrest : d.decodeAll (rest ++ more) = d.resume (d.decodeAll rest) more :=
        ih rest.length hshorter rest rfl
      rw [decodeAll_eq d buffer, hd, decodeAll_eq d (buffer ++ more),
        decode_append_of_payload hd more]
      show (d.decodeAll (rest ++ more)).after [payload] = d.resume ((d.decodeAll rest).after _) more
      rw [hrest, resume_after]
    | (.ok none, rest) =>
      have hsame : d.decodeAll (buffer ++ more) = d.decodeAll (rest ++ more) := by
        rw [decodeAll_eq, decodeAll_eq, decode_append_of_none hd]
      rw [decodeAll_eq d buffer, hd, hsame]
      rfl
    | (.error e, rest) =>
      rw [decodeAll_eq d buffer, hd, decodeAll_eq d (buffer ++ more),
        decode_append_of_error hd more]
      rfl

/-- What is left without an error holds no whole frame. -/
theorem decode_rest_decodeAll (h : (d.decodeAll buffer).error = none) :
    d.decode (d.decodeAll buffer).rest = (.ok none, (d.decodeAll buffer).rest) := by
  induction hn : buffer.length using Nat.strongRecOn generalizing buffer with
  | _ n ih =>
    subst hn
    match hd : d.decode buffer with
    | (.ok (some payload), rest) =>
      have hshorter : rest.length < buffer.length := by
        have hlt := length_decode_lt (congrArg Prod.fst hd)
        rwa [hd] at hlt
      rw [decodeAll_eq, hd] at h ⊢
      exact ih rest.length hshorter h rfl
    | (.ok none, rest) =>
      rw [decodeAll_eq, hd]
      exact decode_rest_of_none hd
    | (.error e, rest) =>
      rw [decodeAll_eq, hd] at h
      cases h

/-! ## Pieces -/

/-- A buffer without a whole frame, and the pieces that come behind it. -/
theorem feed_eq_decodeAll (chunks : List Bytes)
    (h : d.decode buffer = (.ok none, buffer)) :
    d.feed buffer chunks = d.decodeAll (buffer ++ chunks.flatten) := by
  induction chunks generalizing buffer with
  | nil =>
    rw [feed, List.flatten_nil, List.append_nil, decodeAll_eq, h]
  | cons chunk chunks ih =>
    rw [List.flatten_cons, ← List.append_assoc, decodeAll_append d (buffer ++ chunk), feed]
    dsimp only
    unfold resume
    cases he : (d.decodeAll (buffer ++ chunk)).error with
    | some e => rfl
    | none =>
      rw [← ih (decode_rest_decodeAll he)]
      rfl

theorem decode_nil (d : Decoder) : d.decode [] = (.ok none, []) := rfl

/-- A stream in pieces yields what the whole stream yields at once: the same payloads, the same
first error or none, and the same bytes that are not consumed. -/
theorem feed_flatten (d : Decoder) (chunks : List Bytes) :
    d.feed [] chunks = d.feed [] [chunks.flatten] := by
  rw [feed_eq_decodeAll chunks d.decode_nil, feed_eq_decodeAll _ d.decode_nil]
  rw [List.flatten_cons, List.flatten_nil, List.append_nil]

end ChatRelay.Frame.Decoder
