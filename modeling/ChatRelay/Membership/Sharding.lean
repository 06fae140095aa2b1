import ChatRelay.Id

/-!
# The bucket of a user

Users are spread over the buckets by the 32-bit FNV-1a hash of their identifier in decimal, so
that every instance with the same number of buckets agrees.
-/

namespace ChatRelay

/-- The hash of no bytes. -/
def fnvBasis : UInt32 := 0x811c9dc5

def fnvPrime : UInt32 := 0x01000193

/-- The FNV-1a hash of a list of bytes. -/
def fnv1a (bytes : List UInt8) : UInt32 :=
  bytes.foldl (fun hash byte => (hash ^^^ byte.toUInt32) * fnvPrime) fnvBasis

/-- The bucket of a user; a count of 0 is taken as 1. -/
def UserId.bucketIndex (user : UserId) (count : Nat) : Nat :=
  (fnv1a user.toText.toUTF8.toList).toNat % max count 1

theorem UserId.bucketIndex_lt (user : UserId) (count : Nat) :
    user.bucketIndex count < max count 1 :=
  Nat.mod_lt _ (Nat.lt_of_lt_of_le Nat.zero_lt_one (Nat.le_max_right _ _))

end ChatRelay
