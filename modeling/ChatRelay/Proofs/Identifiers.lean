import ChatRelay.Membership.Sharding
import ChatRelay.Message.Wire
import ChatRelay.Proofs.Json.Lossless
import ChatRelay.Proofs.Text.Canonical
import ChatRelay.Proofs.Text.Quoting

/-!
# Identifiers as text

Users, rooms and sequence ids are the same to a reader of texts: a signed integer of 64 bits in
decimal, between blanks. `DenotesId` says this without saying how it is read, and `IdText` is all
that follows for a type of identifiers: reading finds the integer that a text denotes and nothing
else, and writing gives its canonical numeral. The three types differ from `Int64` in name only
(`idText`).

The text of a user is hashed to find their bucket, so it matters that no two users share one. Where
a sequence id is expected, a text that denotes none is reported as it came, and the report shows
which text it was.
-/

namespace ChatRelay

open Json

/-- Between blanks the text is a signed numeral of an integer of 64 bits. -/
structure DenotesId (text : String) (i : Int) : Prop where
  numeral : ∃ core, Text.IsPadded core text ∧ Text.IsSignedNumeral core.toList i
  lower : -2 ^ 63 ≤ i
  upper : i ≤ 2 ^ 63 - 1

variable {text : String} {i : Int}

/-! ## Reading and writing an integer -/

/-- An identifier is a numeral in the range of 64 bits, between blanks. -/
theorem readId?_eq_some_iff {n : Int64} : readId? text = some n ↔
    ∃ core, Text.IsSignedNumeral core.toList n.toInt ∧ Text.IsPadded core text := by
  have htrim : readId? text = Text.Decimal.int64? (Text.trim text).toList := by
    rw [Text.trim, String.toList_ofList, readId?]
  rw [htrim, Text.Decimal.int64?_eq_some_iff]
  constructor
  · exact fun h => ⟨Text.trim text, h, Text.isPadded_trim text⟩
  · rintro ⟨core, hcore, hpadded⟩
    rwa [hpadded.trim_eq, hcore.isCore.trim_eq]

theorem readId?_map_eq_some_iff : (readId? text).map Int64.toInt = some i ↔ DenotesId text i := by
  rw [Option.map_eq_some_iff]
  constructor
  · rintro ⟨n, hn, rfl⟩
    obtain ⟨core, hcore, hpadded⟩ := readId?_eq_some_iff.mp hn
    exact ⟨⟨core, hpadded, hcore⟩, n.le_toInt, Int.le_sub_one_of_lt n.toInt_lt⟩
  · rintro ⟨⟨core, hpadded, hcore⟩, hlower, hupper⟩
    have hi : (Int64.ofInt i).toInt = i :=
      Int64.toInt_ofInt_of_le hlower (Int.lt_of_le_sub_one hupper)
    rw [← hi] at hcore
    exact ⟨Int64.ofInt i, readId?_eq_some_iff.mpr ⟨core, hcore, hpadded⟩, hi⟩

theorem readId?_toString (n : Int64) : readId? (toString n.toInt) = some n :=
  readId?_eq_some_iff.mpr
    ⟨_, (Text.isCanonical_iff.mpr rfl).isSignedNumeral, Text.isPadded_self _⟩

/-! ## Types of identifiers -/

/-- `read` and `write` are the decimal notation of the identifiers in `α`, each of which stands for
the integer `value`. -/
structure IdText {α : Type} (value : α → Int64) (read : String → Option α)
    (write : α → String) : Prop where
  /-- A text is read as the integer that it denotes, and refused if it denotes none. -/
  read_iff : ∀ text i, (read text).map (fun a => (value a).toInt) = some i ↔ DenotesId text i
  read_write : ∀ a, read (write a) = some a
  /-- Reading a text and writing it again puts the canonical numeral in its place. -/
  write_read_iff : ∀ text text', (read text).map write = some text' ↔
    ∃ i, DenotesId text i ∧ Text.IsCanonical text'.toList i
  write_injective : Function.Injective write

theorem idText {α : Type} (mk : Int64 → α) (value : α → Int64) (hmk : ∀ n, value (mk n) = n)
    (hvalue : ∀ a, mk (value a) = a) :
    IdText value (fun text => (readId? text).map mk) fun a => toString (value a).toInt := by
  have hread_iff (text : String) (i : Int) :
      ((readId? text).map mk).map (fun a => (value a).toInt) = some i ↔ DenotesId text i := by
    have hcomp : (fun a => (value a).toInt) ∘ mk = Int64.toInt :=
      funext fun n => congrArg Int64.toInt (hmk n)
    rw [Option.map_map, hcomp, readId?_map_eq_some_iff]
  have hread_write (a : α) : (readId? (toString (value a).toInt)).map mk = some a := by
    rw [readId?_toString, Option.map_some, hvalue]
  constructor
  case read_iff => exact hread_iff
  case read_write => exact hread_write
  case write_read_iff =>
    intro text text'
    have hwrite : ((readId? text).map mk).map (fun a => toString (value a).toInt) =
        (((readId? text).map mk).map fun a => (value a).toInt).map toString :=
      (Option.map_map toString _ _).symm
    rw [hwrite, Option.map_eq_some_iff]
    refine exists_congr fun i => and_congr (hread_iff text i) ?_
    rw [Text.isCanonical_iff, String.toList_inj, eq_comm]
  case write_injective =>
    intro a b h
    have hsame := congrArg (fun text => (readId? text).map mk) h
    simp only [hread_write] at hsame
    exact Option.some.inj hsame

/-! ## Refused sequence ids -/

namespace SequenceId

/-- A text on the wire is judged as the text that it is. -/
theorem decode_text (text : String) :
    wire.decode (Codec.text.encode text).toUTF8.toList = ofSummary (.text text) := by
  have htokens : tokens (Codec.text.encode text).toUTF8.toList = [.text (some text)] :=
    ((@Codec.lossless_text 0).compact text).tokens_render
  have hsummary (room : Nat) : Codec.readSummary room [.text (some text)] =
      .ok (.text text, []) := rfl
  rw [Codec.decode, htokens]
  simp only [wire, Codec.summarized, hsummary]
  cases ofSummary (.text text) <;> rfl

theorem formatMessage_injective : Function.Injective formatMessage := by
  intro s t h
  have happend (text : String) : (formatMessage text).toList =
      "invalid sequence id: ".toList ++ (Text.quoted text).toList := String.toList_append
  have hlists := congrArg String.toList h
  rw [happend, happend, List.append_right_inj] at hlists
  exact Text.quoted_injective (String.toList_inj.mp hlists)

end SequenceId

/-! ## Main result -/

/-- All identifiers are read and written as decimal text. The bucket of a user is found by the bytes
of this text, which are not those of any other user. A text that is refused as a sequence id is
reported as it came, with the blanks around it: no other text has the same report. -/
theorem id_text_format :
    IdText UserId.value UserId.ofText? UserId.toText ∧
    IdText RoomId.value RoomId.ofText? RoomId.toText ∧
    IdText SequenceId.value SequenceId.ofText? SequenceId.toText ∧
    (∀ (user : UserId) (count : Nat),
      user.bucketIndex count = (fnv1a user.toText.toUTF8.toList).toNat % max count 1) ∧
    Function.Injective (fun user : UserId => user.toText.toUTF8.toList) ∧
    (∀ text, SequenceId.wire.decode (Codec.text.encode text).toUTF8.toList =
      match SequenceId.ofText? text with
      | some id => .ok id
      | none => .error (.mismatch (some (SequenceId.formatMessage text)))) ∧
    Function.Injective SequenceId.formatMessage := by
  have huser : IdText UserId.value UserId.ofText? UserId.toText :=
    idText UserId.mk UserId.value (fun _ => rfl) (fun _ => rfl)
  refine ⟨huser, idText RoomId.mk RoomId.value (fun _ => rfl) (fun _ => rfl),
    idText SequenceId.mk SequenceId.value (fun _ => rfl) (fun _ => rfl), fun _ _ => rfl, ?_, ?_,
    SequenceId.formatMessage_injective⟩
  · intro user user' h
    exact huser.write_injective (toUTF8_toList_inj h)
  · exact SequenceId.decode_text

/-- The least integer is read with zeros in front and blanks around it, and written without them;
the one behind the greatest is refused; a text with letters is reported with its blanks. -/
theorem id_text_format_at_the_ends :
    (UserId.ofText? "\u2003-009223372036854775808\n").map UserId.toText =
      some "-9223372036854775808" ∧
    RoomId.ofText? "9223372036854775808" = none ∧
    SequenceId.ofText? " 12ab\t" = none ∧
    SequenceId.wire.decode (Codec.text.encode " 12ab\t").toUTF8.toList =
      .error (.mismatch (some "invalid sequence id: \" 12ab\\t\"")) := by
  have hdenotes : DenotesId "\u2003-009223372036854775808\n" (-9223372036854775808) :=
    ⟨⟨"-009223372036854775808", ⟨"\u2003", "\n", by decide, by decide, by decide⟩,
      Text.Decimal.signed?_eq_some_iff.mp (by decide)⟩, by decide, by decide⟩
  have hcanonical : Text.IsCanonical "-9223372036854775808".toList (-9223372036854775808) :=
    Text.isCanonical_iff.mpr (by decide +kernel)
  have hrefused : SequenceId.ofText? " 12ab\t" = none := by decide
  have hmessage : SequenceId.formatMessage " 12ab\t" = "invalid sequence id: \" 12ab\\t\"" := by
    decide +kernel
  have hreport := id_text_format.2.2.2.2.2.1 " 12ab\t"
  rw [hrefused, hmessage] at hreport
  exact ⟨(id_text_format.1.write_read_iff _ _).mpr ⟨_, hdenotes, hcanonical⟩, by decide, hrefused,
    hreport⟩

end ChatRelay
