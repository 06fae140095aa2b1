import ChatRelay.Frame.Basic

/-!
# Frames in a stream

A decoder takes frames from a buffer to which received bytes are appended. Bytes in front of the
next version tag are garbage and skipped; a lone first tag byte at the end of the buffer is kept,
since the second one may follow. A refused frame stays in the buffer from its tag on.
-/

namespace ChatRelay.Frame

/-- Skip to the next version tag, or to a first tag byte that ends the buffer. -/
def resync : Bytes → Bytes
  | [] => []
  | [v] => if v = firstTag then [v] else []
  | v :: w :: rest =>
    if v = firstTag ∧ w = secondTag then v :: w :: rest else resync (w :: rest)

theorem length_resync_le (buffer : Bytes) : (resync buffer).length ≤ buffer.length := by
  fun_induction resync buffer with
  | case1 => exact Nat.le_refl _
  | case2 => exact Nat.le_refl _
  | case3 => exact Nat.zero_le _
  | case4 => exact Nat.le_refl _
  | case5 v w rest _ ih => exact Nat.le_succ_of_le ih

/-- The reader of one stream, which knows how long a frame may be. -/
structure Decoder where
  max : Nat
  headerSize_le : headerSize ≤ max
  le_maxEncodable : max ≤ maxEncodable
  deriving DecidableEq, Repr

namespace Decoder

/-- A decoder for frames of at most `limit` bytes, brought into the range of lengths that a frame
can have. -/
def new (limit : Nat) : Decoder :=
  ⟨Max.max headerSize (min limit maxEncodable), Nat.le_max_left _ _,
    Nat.max_le.2 ⟨by decide, Nat.min_le_right _ _⟩⟩

/-- The longest payload. -/
def maxPayload (d : Decoder) : Nat :=
  d.max - headerSize

/-- Take the next frame from the buffer; the second part is the buffer afterwards. -/
def decode (d : Decoder) (buffer : Bytes) : Except FrameError (Option Bytes) × Bytes :=
  let buffer := resync buffer
  match unpack d.max buffer with
  | .ok (some (payload, rest)) => (.ok (some payload), rest)
  | .ok none => (.ok none, buffer)
  | .error e => (.error e, buffer)

theorem length_decode_lt {d : Decoder} {buffer payload : Bytes}
    (h : (d.decode buffer).1 = .ok (some payload)) :
    (d.decode buffer).2.length < buffer.length := by
  unfold decode at h ⊢
  dsimp only at h ⊢
  split at h
  next hu =>
    exact Nat.lt_of_lt_of_le (length_unpack_lt hu) (length_resync_le buffer)
  · cases h
  · cases h

/-- Take the next frame from the buffer of a stream that has ended. -/
def decodeEnd (d : Decoder) (buffer : Bytes) : Except FrameError (Option Bytes) × Bytes :=
  match d.decode buffer with
  | (.ok none, b :: rest) => (.error .leftover, b :: rest)
  | outcome => outcome

/-- Frame a payload for this stream. -/
def encode (d : Decoder) (payload : Bytes) : Except FrameError Bytes :=
  pack d.max payload

/-- What a buffer yielded: the payloads in order, the error that ended the reading, if any, and
the bytes that remain. -/
structure Yield where
  payloads : List Bytes
  error : Option FrameError
  rest : Bytes
  deriving DecidableEq, Repr

/-- Take frames until the buffer holds no whole one, or until the first error. -/
def decodeAll (d : Decoder) (buffer : Bytes) : Yield :=
  match _h : (d.decode buffer).1 with
  | .ok (some payload) =>
    let y := d.decodeAll (d.decode buffer).2
    { y with payloads := payload :: y.payloads }
  | .ok none => ⟨[], none, (d.decode buffer).2⟩
  | .error e => ⟨[], some e, (d.decode buffer).2⟩
  termination_by buffer.length
  decreasing_by exact length_decode_lt _h

/-- Feed a stream in pieces, each to what the ones before it left. After an error nothing more is
read, and the pieces that were not fed remain behind the buffer. -/
def feed (d : Decoder) (buffer : Bytes) : List Bytes → Yield
  | [] => ⟨[], none, buffer⟩
  | chunk :: chunks =>
    let y := d.decodeAll (buffer ++ chunk)
    match y.error with
    | some _ => { y with rest := y.rest ++ chunks.flatten }
    | none =>
      let later := d.feed y.rest chunks
      { later with payloads := y.payloads ++ later.payloads }

end Decoder

end ChatRelay.Frame
