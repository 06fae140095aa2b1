import ChatRelay.Json.Walk

/-!
# Reading and writing typed values

A `Codec` reads a value of one type from the front of a list of tokens and writes such a value as
tokens. Reading is strict in the order of the text: the first fault in it is the answer. The
number `room` bounds the nesting, each bracket that is entered takes one from it. That a codec
never succeeds without taking a token is part of the type, so that lists of members can be read
by recursion on the tokens that remain.
-/

namespace ChatRelay.Json

/-- A way to read and to write the values of one type. -/
structure Codec (α : Type) where
  read : Nat → List Token → Except Fault (α × List Token)
  write : α → List Token
  read_lt : ∀ {room ts a rest}, read room ts = .ok (a, rest) → rest.length < ts.length

namespace Codec

variable {α β : Type}

/-- Brackets that may be open at the same time, plus one. -/
abbrev nesting : Nat := 128

/-- Read a value from the front of a text and ignore what follows it. -/
def decodeFront (c : Codec α) (bytes : List UInt8) : Except Fault α :=
  (c.read nesting (tokens bytes)).map Prod.fst

/-- Read a text that holds one value and nothing else. -/
def decode (c : Codec α) (bytes : List UInt8) : Except Fault α :=
  match c.read nesting (tokens bytes) with
  | .error fault => .error fault
  | .ok (a, []) => .ok a
  | .ok (_, _ :: _) => .error .malformed

/-- Write a value as compact text. -/
def encode (c : Codec α) (a : α) : String :=
  render (c.write a)

/-! ## Scalars -/

/-- Read a single token that `accept` gives a meaning; any other token is refused. -/
def readScalar (accept : Token → Option (Except Fault α)) :
    List Token → Except Fault (α × List Token)
  | [] => .error .truncated
  | token :: rest =>
    match accept token with
    | some (.ok a) => .ok (a, rest)
    | some (.error fault) => .error fault
    | none => .error token.refusal

theorem readScalar_lt {accept : Token → Option (Except Fault α)} {ts rest : List Token} {a : α}
    (h : readScalar accept ts = .ok (a, rest)) : rest.length < ts.length := by
  unfold readScalar at h
  split at h
  · cases h
  · split at h <;> cases h
    exact Nat.lt_succ_self _

/-- A value written as one token. -/
def scalar (accept : Token → Option (Except Fault α)) (write : α → Token) : Codec α where
  read _ := readScalar accept
  write a := [write a]
  read_lt := readScalar_lt

/-- A text. -/
def text : Codec String :=
  scalar (fun | .text (some s) => some (.ok s) | _ => none) (.text ∘ some)

/-- An integer to which `ofInt?` gives a meaning, and `toInt` a number. -/
def integer (ofInt? : Int → Except Fault α) (toInt : α → Int) : Codec α :=
  scalar (fun | .number (.whole i) => some (ofInt? i) | _ => none) (.number ∘ .whole ∘ toInt)

/-- A signed integer of 64 bits. -/
def int64 : Codec Int64 :=
  integer
    (fun i => if Int64.minValue.toInt ≤ i ∧ i ≤ Int64.maxValue.toInt then .ok (Int64.ofInt i)
      else .error .unfit)
    Int64.toInt

/-- A signed integer of 32 bits. -/
def int32 : Codec Int32 :=
  integer
    (fun i => if Int32.minValue.toInt ≤ i ∧ i ≤ Int32.maxValue.toInt then .ok (Int32.ofInt i)
      else .error .unfit)
    Int32.toInt

/-- A natural number of 64 bits. -/
def uint64 : Codec UInt64 :=
  integer
    (fun i => if 0 ≤ i ∧ i < UInt64.size then .ok (UInt64.ofNat i.toNat) else .error .unfit)
    (fun n => n.toNat)

/-! ## Values read through others -/

/-- Read a value through one of another type, which may be refused. -/
def refine (c : Codec α) (of? : α → Except Fault β) (back : β → α) : Codec β where
  read room ts :=
    match c.read room ts with
    | .error fault => .error fault
    | .ok (a, rest) => (of? a).map fun b => (b, rest)
  write b := c.write (back b)
  read_lt := by
    intro room ts b rest h
    split at h
    · cases h
    next a rest' ha =>
      cases hb : of? a with
      | error fault => rw [hb] at h; cases h
      | ok b' =>
        rw [hb] at h
        cases h
        exact c.read_lt ha

/-- Read a value through one of an equivalent type. -/
def map (c : Codec α) (of : α → β) (back : β → α) : Codec β :=
  c.refine (fun a => .ok (of a)) back

/-! ## Values judged after they are read whole -/

/-- What is left of a value that was read whole: an integer, a text, or neither. -/
inductive Summary where
  | whole (value : Int)
  | text (content : String)
  | other
  deriving DecidableEq, Repr

/-- The summary of a value that begins with `token`. -/
def Summary.ofToken : Token → Summary
  | .number (.whole i) => whole i
  | .text (some s) => text s
  | _ => other

/-- Read any value whole. -/
def readSummary (room : Nat) : List Token → Except Fault (Summary × List Token)
  | [] => .error .truncated
  | token :: rest =>
    match walk (.keeping room) .value [] (token :: rest) with
    | .error flaw => .error (.flaw flaw)
    | .ok rest => .ok (.ofToken token, rest)

theorem readSummary_lt {room : Nat} {ts rest : List Token} {s : Summary}
    (h : readSummary room ts = .ok (s, rest)) : rest.length < ts.length := by
  unfold readSummary at h
  split at h
  · cases h
  · split at h
    · cases h
    next hw => cases h; exact length_walk_lt hw

/-- A value of any type, read whole and then judged; it is written as an integer. -/
def summarized (of? : Summary → Except Fault α) (toInt : α → Int) : Codec α where
  read room ts :=
    match readSummary room ts with
    | .error fault => .error fault
    | .ok (s, rest) => (of? s).map fun a => (a, rest)
  write a := [.number (.whole (toInt a))]
  read_lt := by
    intro room ts b rest h
    split at h
    · cases h
    next s rest' hs =>
      cases hb : of? s with
      | error fault => rw [hb] at h; cases h
      | ok b' =>
        rw [hb] at h
        cases h
        exact readSummary_lt hs

end Codec

end ChatRelay.Json
