import ChatRelay.Message.Wire
import ChatRelay.Proofs.Json.Lossless
import ChatRelay.Registry.Entry

/-!
# Every message survives the wire

Each record that travels between clients, the relay and the tiers around it is read back from its
text as it was written, over the whole range of its values: every 64-bit integer, every text, and
every table of users in whatever order it lists them (`wire_roundTrips`). The codecs of the records
are lossless because the codecs of their fields are; what is special to a field stands at its own
codec, the known operation codes at `OpCode` and the sequence id, which is read through a summary
of any value, at `SequenceId`.
-/

namespace ChatRelay

open Json

/-! ## Tables in the order of entry -/

namespace Table

variable {κ α : Type} [DecidableEq κ]

theorem enter_of_notMem {k : κ} {a : α} {es : List (κ × α)} (h : k ∉ es.map Prod.fst) :
    enter k a es = es ++ [(k, a)] := by
  induction es with
  | nil => rfl
  | cons e es ih =>
    obtain ⟨hne, hn⟩ := List.ne_and_not_mem_of_not_mem_cons h
    rw [enter, if_neg (Ne.symm hne), ih hn, List.cons_append]

theorem entries_foldl_insert {t : Table κ α} {es : List (κ × α)}
    (h : ((t.entries ++ es).map Prod.fst).Nodup) :
    (es.foldl (fun t e => t.insert e.1 e.2) t).entries = t.entries ++ es := by
  induction es generalizing t with
  | nil => exact (List.append_nil _).symm
  | cons e es ih =>
    have hnew : e.1 ∉ t.entries.map Prod.fst := by
      rw [List.map_append, List.map_cons, List.nodup_append] at h
      exact fun hmem => h.2.2 _ hmem _ List.mem_cons_self rfl
    have hentries : (t.insert e.1 e.2).entries = t.entries ++ [e] := enter_of_notMem hnew
    rw [List.foldl_cons, ih (by simpa [hentries] using h), hentries, List.append_assoc,
      List.singleton_append]

/-- Entering the entries of a table one after the other gives the table. -/
theorem ofList_entries (t : Table κ α) : ofList t.entries = t := by
  have h : (ofList t.entries).entries = t.entries := entries_foldl_insert t.nodup
  cases t
  exact Table.mk.injEq .. ▸ h

end Table

/-! ## The codecs of the messages -/

section Codecs

variable {depth : Nat}

theorem UserId.lossless_wire : UserId.wire.Lossless depth :=
  Codec.lossless_int64.map fun _ => rfl

theorem RoomId.lossless_wire : RoomId.wire.Lossless depth :=
  Codec.lossless_int64.map fun _ => rfl

theorem OpCode.lossless_wire : OpCode.wire.Lossless depth :=
  Codec.lossless_int32.refine fun op => by rw [ofInt32?_toInt32]

theorem SequenceId.lossless_wire : SequenceId.wire.Lossless depth := by
  refine Codec.lossless_summarized (fun s => ?_) (fun s => ?_)
  · rw [ofSummary, if_pos ⟨s.value.minValue_le_toInt, s.value.toInt_le⟩, Int64.ofInt_toInt]
  · have hlt : s.value.toInt < 2 ^ 63 := s.value.toInt_lt
    exact ⟨s.value.le_toInt, by omega⟩

theorem Msg.lossless_wire : Msg.wire.Lossless (depth + 1) :=
  Codec.Lossless.map
    (Fields.Lossless.codec ⟨Codec.lossless_int32, OpCode.lossless_wire, SequenceId.lossless_wire,
      Codec.lossless_text, trivial⟩ (by decide))
    fun _ => rfl

theorem PushUser.lossless_wire : PushUser.wire.Lossless (depth + 2) :=
  Codec.Lossless.map
    (Fields.Lossless.codec ⟨UserId.lossless_wire, Msg.lossless_wire, trivial⟩ (by decide))
    fun _ => rfl

theorem PushRoom.lossless_wire : PushRoom.wire.Lossless (depth + 2) :=
  Codec.Lossless.map
    (Fields.Lossless.codec ⟨RoomId.lossless_wire, Msg.lossless_wire, trivial⟩ (by decide))
    fun _ => rfl

theorem Reply.lossless_wire : Reply.wire.Lossless (depth + 1) :=
  Codec.Lossless.map
    (Fields.Lossless.codec ⟨Codec.lossless_int32, Codec.lossless_text, trivial⟩ (by decide))
    fun _ => rfl

theorem TcpMessage.lossless_wire : TcpMessage.wire.Lossless (depth + 1) :=
  Codec.Lossless.map
    (Fields.Lossless.codec ⟨Codec.lossless_int32, Codec.lossless_text, RoomId.lossless_wire,
      Codec.lossless_text, UserId.lossless_wire, Codec.lossless_text, trivial⟩ (by decide))
    fun _ => rfl

theorem RoomCount.lossless_wire : RoomCount.wire.Lossless (depth + 1) :=
  Codec.Lossless.map
    (Fields.Lossless.codec ⟨OpCode.lossless_wire, Codec.lossless_uint64, trivial⟩ (by decide))
    fun _ => rfl

/-- The users stand in an object of their own, with one member for each of them. -/
theorem RoomInfo.lossless_wire : RoomInfo.wire.Lossless (depth + 2) :=
  Codec.Lossless.map
    (Fields.Lossless.codec ⟨OpCode.lossless_wire, RoomId.lossless_wire, Codec.lossless_uint64,
      Codec.lossless_texts.map Table.ofList_entries, trivial⟩ (by decide))
    fun _ => rfl

theorem ConnectRequest.lossless_wire : ConnectRequest.wire.Lossless (depth + 1) :=
  Codec.Lossless.map
    (Fields.Lossless.codec ⟨Codec.lossless_text, RoomId.lossless_wire, Codec.lossless_text,
      trivial⟩ (by decide))
    fun _ => rfl

theorem DisconnectRequest.lossless_wire : DisconnectRequest.wire.Lossless (depth + 1) :=
  Codec.Lossless.map
    (Fields.Lossless.codec ⟨UserId.lossless_wire, RoomId.lossless_wire, trivial⟩ (by decide))
    fun _ => rfl

theorem SendRoomRequest.lossless_wire : SendRoomRequest.wire.Lossless (depth + 1) :=
  Codec.Lossless.map
    (Fields.Lossless.codec ⟨Codec.lossless_text, UserId.lossless_wire, Codec.lossless_text,
      RoomId.lossless_wire, Codec.lossless_int32, trivial⟩ (by decide))
    fun _ => rfl

theorem ServiceEntry.lossless_wire : ServiceEntry.wire.Lossless (depth + 1) :=
  Codec.Lossless.map
    (Fields.Lossless.codec ⟨Codec.lossless_text, Codec.lossless_text, Codec.lossless_text,
      trivial⟩ (by decide))
    fun _ => rfl

end Codecs

/-- Every message that is written as compact text is read back as it was. -/
theorem wire_roundTrips :
    Msg.wire.RoundTrips ∧ PushUser.wire.RoundTrips ∧ PushRoom.wire.RoundTrips ∧
      Reply.wire.RoundTrips ∧ TcpMessage.wire.RoundTrips ∧ RoomCount.wire.RoundTrips ∧
      RoomInfo.wire.RoundTrips ∧ ConnectRequest.wire.RoundTrips ∧
      DisconnectRequest.wire.RoundTrips ∧ SendRoomRequest.wire.RoundTrips ∧
      ServiceEntry.wire.RoundTrips := by
  have flat : 0 + 1 < Codec.nesting := by decide
  have nested : 0 + 2 < Codec.nesting := by decide
  exact ⟨Msg.lossless_wire.roundTrips flat,
    PushUser.lossless_wire.roundTrips nested,
    PushRoom.lossless_wire.roundTrips nested,
    Reply.lossless_wire.roundTrips flat,
    TcpMessage.lossless_wire.roundTrips flat,
    RoomCount.lossless_wire.roundTrips flat,
    RoomInfo.lossless_wire.roundTrips nested,
    ConnectRequest.lossless_wire.roundTrips flat,
    DisconnectRequest.lossless_wire.roundTrips flat,
    SendRoomRequest.lossless_wire.roundTrips flat,
    ServiceEntry.lossless_wire.roundTrips flat⟩

end ChatRelay
