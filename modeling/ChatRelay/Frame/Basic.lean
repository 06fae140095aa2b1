/-!
# Frames

On a raw connection every payload travels in a frame: the version tag of two bytes, the length of
the whole frame as two bytes with the high one first, and the payload. `pack` writes a frame and
`unpack` takes one from the front of a buffer. A length below that of the header, or above the
agreed maximum, is refused before the payload is awaited.
-/

namespace ChatRelay

/-- Why a frame could not be written or read. -/
inductive FrameError where
  /-- The transport failed. -/
  | io (reason : String)
  /-- The buffer begins with other bytes than the version tag. -/
  | invalidVersion (first second : UInt8)
  /-- The stated length does not even cover the header. -/
  | lengthTooShort (length : Nat)
  | tooLarge (length max : Nat)
  deriving DecidableEq, Repr

namespace FrameError

def message : FrameError → String
  | io reason => "Frame I/O error: " ++ reason
  | invalidVersion first second =>
    "Invalid frame version: [" ++ toString first.toNat ++ ", " ++ toString second.toNat ++ "]"
  | lengthTooShort length => "Frame length " ++ toString length ++ " is shorter than the header"
  | tooLarge length max =>
    "Frame length " ++ toString length ++ " exceeds maximum " ++ toString max

/-- A stream ended inside a frame. -/
def leftover : FrameError :=
  io "bytes remaining on stream"

end FrameError

namespace Frame

/-- A run of bytes. -/
abbrev Bytes := List UInt8

/-- The bytes of "v1". -/
def firstTag : UInt8 := 0x76
def secondTag : UInt8 := 0x31

/-- Bytes before the payload. -/
abbrev headerSize : Nat := 4

/-- The longest frame whose length can be written. -/
abbrev maxEncodable : Nat := 65535

/-- A number below 65536 as two bytes, the high one first. -/
def lengthBytes (n : Nat) : Bytes :=
  [UInt8.ofNat (n / 256), UInt8.ofNat n]

/-- The number that two bytes stand for. -/
def lengthOf (high low : UInt8) : Nat :=
  256 * high.toNat + low.toNat

theorem lengthOf_lengthBytes {n : Nat} (h : n ≤ maxEncodable) :
    lengthOf (UInt8.ofNat (n / 256)) (UInt8.ofNat n) = n := by
  have hn : n < 65536 := Nat.lt_succ_of_le h
  simp only [lengthOf, UInt8.toNat_ofNat']
  omega

/-- The payload in its frame. -/
def frame (payload : Bytes) : Bytes :=
  firstTag :: secondTag :: lengthBytes (headerSize + payload.length) ++ payload

/-- Frame a payload, if the frame is no longer than `max` and its length can be written. -/
def pack (max : Nat) (payload : Bytes) : Except FrameError Bytes :=
  let total := headerSize + payload.length
  let limit := min max maxEncodable
  if limit < total then .error (.tooLarge total limit) else .ok (frame payload)

/-- Take a frame of at most `max` bytes from the front of a buffer: its payload and the bytes
behind it, or nothing while the frame is incomplete. -/
def unpack (max : Nat) : Bytes → Except FrameError (Option (Bytes × Bytes))
  | v :: w :: high :: low :: rest =>
    if v = firstTag ∧ w = secondTag then
      let total := lengthOf high low
      if total < headerSize then .error (.lengthTooShort total)
      else if max < total then .error (.tooLarge total max)
      else if rest.length < total - headerSize then .ok none
      else .ok (some (rest.splitAt (total - headerSize)))
    else .error (.invalidVersion v w)
  | _ => .ok none

theorem length_unpack_lt {max : Nat} {buffer payload rest : Bytes}
    (h : unpack max buffer = .ok (some (payload, rest))) : rest.length < buffer.length := by
  unfold unpack at h
  split at h
  · split at h
    · dsimp only at h
      split at h
      · cases h
      · split at h
        · cases h
        · split at h
          · cases h
          · simp only [List.splitAt_eq, Except.ok.injEq, Option.some.injEq, Prod.mk.injEq] at h
            rw [← h.2]
            simp only [List.length_drop, List.length_cons]
            omega
    · cases h
  · cases h

end Frame

end ChatRelay
