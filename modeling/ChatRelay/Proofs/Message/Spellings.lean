import ChatRelay.Proofs.Identifiers
import ChatRelay.Proofs.Json.Lexemes
import ChatRelay.Proofs.Json.Records
import ChatRelay.Proofs.Message.RoundTrip
import ChatRelay.Proofs.Text.Grammar

/-!
# Every spelling of a message

A message may be written as an object, with its members in any order and with members of other
names among them, or as an array of its values; its sequence id may be an integer or a text. All
these texts are read as the same message (`Msg.spellings_decode_alike`).

Conversely, what is read as a message has a known operation code. `CodedMsg` is a message whose
code may be any number; a text that is read as a message is read as a `CodedMsg` too, and so shows
the code that the text has.
-/

namespace ChatRelay

open Json

/-! ## Sequence ids -/

namespace SequenceId

variable {id : SequenceId} {v : List Token}

/-- A sequence id as an integer, or as a numeral between blanks. -/
inductive SpelledBy (id : SequenceId) : List Token → Prop
  | integer : id.SpelledBy [.number (.whole id.value.toInt)]
  | text {core text : String} (hcore : Text.IsSignedNumeral core.toList id.value.toInt)
      (htext : Text.IsPadded core text) : id.SpelledBy [.text (some text)]

theorem SpelledBy.read {room : Nat} (h : id.SpelledBy v) (hr : 0 < room) (rest : List Token) :
    wire.read room (v ++ rest) = .ok (id, rest) := by
  cases h with
  | integer => exact lossless_wire.read_write id rest hr
  | @text core text hcore htext =>
    have hid : ofText? text = some id := by
      rw [ofText?, readId?_eq_some_iff.mpr ⟨core, hcore, htext⟩]
      rfl
    have hsummary : Codec.readSummary room (.text (some text) :: rest) =
        .ok (.text text, rest) := rfl
    have hof : ofSummary (.text text) = .ok id := by rw [ofSummary, hid]
    simp only [wire, Codec.summarized, List.singleton_append, hsummary, hof, Except.map]

theorem SpelledBy.eq_singleton (h : id.SpelledBy v) :
    ∃ t, v = [t] ∧ t ≠ .endArray := by
  cases h <;> exact ⟨_, rfl, nofun⟩

end SequenceId

/-! ## Messages -/

namespace Msg

variable {m : Msg} {p : String × List Token} {ts : List Token} {room : Nat}

def fields : Fields (Int32 × OpCode × SequenceId × String × Unit) :=
  .cons "ver" Codec.int32 none <| .cons "op" OpCode.wire none <|
    .cons "seq" SequenceId.wire (some .unassigned) <| .cons "body" Codec.text none .nil

/-- The values of all fields. -/
def values (m : Msg) : Int32 × OpCode × SequenceId × String × Unit :=
  (m.version, m.op, m.seq, m.body, ())

/-- The names of the members that have a meaning. -/
def memberNames : List String := ["ver", "op", "seq", "body"]

/-- A member of an object that spells the message: its name, and the tokens of its value. -/
inductive IsMember (m : Msg) : String × List Token → Prop
  | version : m.IsMember ("ver", [.number (.whole m.version.toInt)])
  | op : m.IsMember ("op", [.number (.whole m.op.toInt32.toInt)])
  | seq {v : List Token} (hv : m.seq.SpelledBy v) : m.IsMember ("seq", v)
  | body : m.IsMember ("body", [.text (some m.body)])
  | unknown {name : String} {v : List Token} (hname : name ∉ memberNames) (hv : IsValue v) :
      m.IsMember (name, v)

/-- The tokens are a spelling of the message. -/
inductive SpelledBy (m : Msg) : List Token → Prop
  | object {ps : List (String × List Token)} (hps : ∀ p ∈ ps, m.IsMember p)
      (hdistinct : ps.Pairwise fun p q => p.1 = q.1 → q.1 ∉ memberNames)
      (hrequired : ∀ name ∈ ["ver", "op", "body"], name ∈ ps.map Prod.fst)
      (hseq : "seq" ∈ ps.map Prod.fst ∨ m.seq = .unassigned) :
      m.SpelledBy (.beginObject :: ((behindCommas (ps.map fun p =>
        .text (some p.1) :: .colon :: p.2)).tail ++ [.endObject]))
  | array {v : List Token} (hv : m.seq.SpelledBy v) :
      m.SpelledBy (.beginArray :: ((behindCommas [[.number (.whole m.version.toInt)],
        [.number (.whole m.op.toInt32.toInt)], v, [.text (some m.body)]]).tail ++ [.endArray]))

/-! ## Reading what was spelled -/

theorem IsMember.apart (h : m.IsMember p) : Apart p.2 := by
  cases h with
  | version | op | body => exact .singleton _
  | seq hv =>
    obtain ⟨t, rfl, -⟩ := hv.eq_singleton
    exact .singleton t
  | unknown _ hv => exact hv.apart

theorem SpelledBy.apart (h : m.SpelledBy ts) : Apart ts := by
  cases h with
  | object hps =>
    refine apart_bracketed (fun g hg => ?_) rfl rfl
    obtain ⟨p, hp, rfl⟩ := List.mem_map.mp hg
    exact .cons rfl (.cons rfl (hps p hp).apart)
  | array hv =>
    obtain ⟨t, rfl, -⟩ := hv.eq_singleton
    refine apart_bracketed (fun g hg => ?_) rfl rfl
    simp only [List.mem_cons, List.not_mem_nil, or_false] at hg
    rcases hg with rfl | rfl | rfl | rfl <;> exact .singleton _

theorem IsMember.fits (h : m.IsMember p) (hr : 0 < room) : fields.Fits room m.values p := by
  have hn : fields.names.Nodup := by decide
  cases h with
  | version =>
    exact Fields.fits_of_reads hn fun rest => Codec.lossless_int32.read_write m.version rest hr
  | op => exact Fields.fits_of_reads hn fun rest => OpCode.lossless_wire.read_write m.op rest hr
  | seq hv => exact Fields.fits_of_reads hn (hv.read hr)
  | body => exact Fields.fits_of_reads hn fun rest => Codec.lossless_text.read_write m.body rest hr
  | unknown hname hv => exact Fields.fits_of_skip hname hv.skip_append

theorem readsAll {v : List Token} (hv : m.seq.SpelledBy v) (hr : 0 < room) :
    fields.ReadsAll room m.values [[.number (.whole m.version.toInt)],
      [.number (.whole m.op.toInt32.toInt)], v, [.text (some m.body)]] := by
  obtain ⟨t, rfl, ht⟩ := hv.eq_singleton
  refine .cons nofun (fun rest => Codec.lossless_int32.read_write m.version rest hr) <|
    .cons nofun (fun rest => OpCode.lossless_wire.read_write m.op rest hr) <|
      .cons (by simpa using ht) (hv.read hr) <|
        .cons nofun (fun rest => Codec.lossless_text.read_write m.body rest hr) .nil

/-- Every spelling of a message is read as the message. -/
theorem SpelledBy.read (h : m.SpelledBy ts) (hr : 1 < room) :
    fields.read room ts = .ok (m.values, []) := by
  have hr' : 0 < room - 1 := Nat.sub_pos_of_lt hr
  cases h with
  | @object ps hps hdistinct hrequired hseq =>
    have hsupplied : fields.Supplied (ps.map Prod.fst).reverse m.values := by
      simp only [Fields.Supplied, fields, values, List.mem_reverse]
      exact ⟨.inl (hrequired _ (by decide)), .inl (hrequired _ (by decide)),
        hseq.imp id (congrArg some ·.symm), .inl (hrequired _ (by decide)), trivial⟩
    rw [← Fields.spellMembers_eq]
    exact Fields.read_spellMembers hr (fun p hp => (hps p hp).fits hr') hdistinct hsupplied []
  | array hv => exact Fields.read_items hr (readsAll hv hr') []

theorem decode_eq (bytes : List UInt8) :
    wire.decode bytes = (fields.codec.decode bytes).map
      fun (version, op, seq, body, ()) => ⟨version, op, seq, body⟩ :=
  Codec.decode_map ..

/-- Every text of a spelling is decoded as the message. -/
theorem SpelledBy.decode (h : m.SpelledBy ts) {text : String} (ht : TextOf ts text.toList) :
    wire.decode text.toUTF8.toList = .ok m := by
  have hfields : fields.codec.decode text.toUTF8.toList = .ok m.values := by
    rw [Codec.decode_eq_ok_iff, toList_toUTF8, ht.tokens_eq h.apart]
    exact h.read (by decide)
  rw [decode_eq, hfields]
  rfl

end Msg

/-! ## Operation codes -/

/-- A message as it was written, whatever its operation code is. -/
structure CodedMsg where
  version : Int32
  op : Int32
  seq : SequenceId
  body : String
  deriving DecidableEq, Repr

namespace CodedMsg

def fields : Fields (Int32 × Int32 × SequenceId × String × Unit) :=
  .cons "ver" Codec.int32 none <| .cons "op" Codec.int32 none <|
    .cons "seq" SequenceId.wire (some .unassigned) <| .cons "body" Codec.text none .nil

def wire : Codec CodedMsg :=
  fields.codec.map (fun (version, op, seq, body, ()) => ⟨version, op, seq, body⟩)
    fun m => (m.version, m.op, m.seq, m.body, ())

def ofMsg (m : Msg) : CodedMsg :=
  ⟨m.version, m.op.toInt32, m.seq, m.body⟩

end CodedMsg

/-- Where an operation code is read, a number is read; where it is unknown, the number is read
nevertheless. -/
theorem OpCode.int32_follows_wire (room : Nat) (ts : List Token) :
    Follows (fun _ => False) (Prod.map toInt32 id) (wire.read room ts)
      (Codec.int32.read room ts) := by
  simp only [wire, Codec.refine]
  cases Codec.int32.read room ts with
  | error fault => exact .error fault
  | ok r =>
    obtain ⟨n, rest⟩ := r
    dsimp only
    cases hop : ofInt32? n with
    | none => exact False.elim
    | some op =>
      rw [ofInt32?_eq_some_iff.mp hop]
      rfl

theorem OpCode.toInt32_range (op : OpCode) : 2 ≤ op.toInt32 ∧ op.toInt32 ≤ 6 := by
  cases op <;> decide

namespace Msg

/-- The fields of a message are read whatever the operation code is. -/
def translation : Fields.Translation (fun _ => False) fields CodedMsg.fields :=
  .cons "ver" none id (fun _ _ => .refl _) <|
    .cons "op" none OpCode.toInt32 OpCode.int32_follows_wire <|
      .cons "seq" (some SequenceId.unassigned) id (fun _ _ => .refl _) <|
        .cons "body" none id (fun _ _ => .refl _) .nil

theorem decode_ofMsg {m : Msg} {bytes : List UInt8} (h : wire.decode bytes = .ok m) :
    CodedMsg.wire.decode bytes = .ok (.ofMsg m) := by
  rw [decode_eq] at h
  obtain ⟨⟨version, op, seq, body, ⟨⟩⟩, ht, rfl⟩ := exists_of_map_eq_ok h
  have hcoded : CodedMsg.wire.decode bytes = (CodedMsg.fields.codec.decode bytes).map
      fun (version, op, seq, body, ()) => ⟨version, op, seq, body⟩ := Codec.decode_map ..
  rw [hcoded, (translation.decode bytes).eq_ok ht]
  rfl

/-- All spellings of a message are decoded as the message, and everything that is decoded as a
message has an operation code from 2 to 6. -/
theorem spellings_decode_alike :
    (∀ (m : Msg) (text : String) (ts : List Token), m.SpelledBy ts → TextOf ts text.toList →
      wire.decode text.toUTF8.toList = .ok m) ∧
    ∀ (bytes : List UInt8) (m : Msg), wire.decode bytes = .ok m →
      CodedMsg.wire.decode bytes = .ok (.ofMsg m) ∧ 2 ≤ m.op.toInt32 ∧ m.op.toInt32 ≤ 6 :=
  ⟨fun _ _ _ h ht => h.decode ht, fun _ m h => ⟨decode_ofMsg h, m.op.toInt32_range⟩⟩

/-- An object in another order, with blanks, an escaped key, a member of an unknown name, and a text
for the sequence id. -/
def scattered : String :=
  "\x7b \"op\":3,\"x\":[\x7b\x7d],\n\t\"b\\u006Fdy\":\"hi\",\"seq\":\" +007 \",\"ver\":1 \x7d"

theorem scattered_decodes : ∃ ts, (⟨1, .roomSend, ⟨7⟩, "hi"⟩ : Msg).SpelledBy ts ∧
    TextOf ts scattered.toList ∧
    wire.decode scattered.toUTF8.toList = .ok ⟨1, .roomSend, ⟨7⟩, "hi"⟩ ∧
    CodedMsg.wire.decode scattered.toUTF8.toList = .ok ⟨1, 3, ⟨7⟩, "hi"⟩ ∧
    (2 : Int32) ≤ 3 ∧ (3 : Int32) ≤ 6 := by
  have hnumeral : Text.IsNumeral ['0', '0', '7'] 7 := ⟨by decide, by simp, by decide⟩
  have hseq : SequenceId.SpelledBy ⟨7⟩ [.text (some " +007 ")] :=
    @SequenceId.SpelledBy.text ⟨7⟩ "+007" _ (.plus hnumeral)
      ⟨" ", " ", by decide, by decide, by decide⟩
  have hx : IsValue [.beginArray, .beginObject, .endObject, .endArray] :=
    .array [[.beginObject, .endObject]] (List.forall_mem_singleton.mpr (.object [] nofun))
  have hspelled : (⟨1, .roomSend, ⟨7⟩, "hi"⟩ : Msg).SpelledBy _ :=
    @SpelledBy.object _ [("op", [.number (.whole 3)]), ("x", _), ("body", [.text (some "hi")]),
      ("seq", _), ("ver", [.number (.whole 1)])]
      (by
        simp only [List.mem_cons, List.not_mem_nil, or_false, forall_eq_or_imp, forall_eq]
        exact ⟨.op, .unknown (by decide) hx, .body, .seq hseq, .version⟩)
      (by decide) (by decide) (.inl (by decide))
  have hkey : Lexeme "\"b\\u006Fdy\"".toList (.text (some "body")) :=
    .text [.plain 'b' (by decide), .unit ⟨0, false⟩ ⟨0, false⟩ ⟨6, false⟩ ⟨15, true⟩,
      .plain 'd' (by decide), .plain 'y' (by decide)]
  have htext : TextOf _ scattered.toList :=
    .lexeme (.spell (t := .beginObject) trivial) <| .blank (by decide) <|
    .lexeme (.spell (t := .text (some "op")) trivial) <| .lexeme (.spell (t := .colon) trivial) <|
    .lexeme (.spell (t := .number (.whole 3)) ⟨by decide, by decide⟩) <|
    .lexeme (.spell (t := .comma) trivial) <|
    .lexeme (.spell (t := .text (some "x")) trivial) <| .lexeme (.spell (t := .colon) trivial) <|
    .lexeme (.spell (t := .beginArray) trivial) <| .lexeme (.spell (t := .beginObject) trivial) <|
    .lexeme (.spell (t := .endObject) trivial) <| .lexeme (.spell (t := .endArray) trivial) <|
    .lexeme (.spell (t := .comma) trivial) <| .blank (by decide) <| .blank (by decide) <|
    .lexeme hkey <| .lexeme (.spell (t := .colon) trivial) <|
    .lexeme (.spell (t := .text (some "hi")) trivial) <| .lexeme (.spell (t := .comma) trivial) <|
    .lexeme (.spell (t := .text (some "seq")) trivial) <| .lexeme (.spell (t := .colon) trivial) <|
    .lexeme (.spell (t := .text (some " +007 ")) trivial) <|
    .lexeme (.spell (t := .comma) trivial) <|
    .lexeme (.spell (t := .text (some "ver")) trivial) <| .lexeme (.spell (t := .colon) trivial) <|
    .lexeme (.spell (t := .number (.whole 1)) ⟨by decide, by decide⟩) <|
    .blank (by decide) <| .lexeme (.spell (t := .endObject) trivial) .nil
  have hdecode := spellings_decode_alike.1 _ _ _ hspelled htext
  exact ⟨_, hspelled, htext, hdecode, spellings_decode_alike.2 _ _ hdecode⟩

end Msg

end ChatRelay
