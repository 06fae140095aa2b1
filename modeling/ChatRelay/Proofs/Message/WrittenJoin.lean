import ChatRelay.Proofs.Json.Records
import ChatRelay.Message.Wire

/-!
# Requests to join, with and without a room

A request to join that names no room is read like one that names `RoomId.none`. `WrittenJoin` keeps
the two apart, and a request to join is what was written with that room in place of the missing one
(`JoinRequest.decode_eq`): the same texts are read, and those that are refused have the same fault.
-/

namespace ChatRelay

open Json

/-- A request to join as it was written; there is no room if none was named. -/
structure WrittenJoin where
  authToken : String
  room? : Option RoomId

namespace WrittenJoin

def fields : Fields (String × Option RoomId × Unit) :=
  .cons "authToken" Codec.text (some "") <|
    .cons "roomId" (RoomId.wire.map some fun room? => room?.getD .none) (some none) .nil

def wire : Codec WrittenJoin :=
  fields.codec.map (fun (authToken, room?, ()) => ⟨authToken, room?⟩)
    fun w => (w.authToken, w.room?, ())

/-- The request that was meant. -/
def request (w : WrittenJoin) : JoinRequest :=
  ⟨w.authToken, w.room?.getD .none⟩

end WrittenJoin

namespace JoinRequest

def fields : Fields (String × RoomId × Unit) :=
  .cons "authToken" Codec.text (some "") <| .cons "roomId" RoomId.wire (some .none) .nil

theorem room_follows (room : Nat) (ts : List Token) :
    Follows (fun _ => True) (Prod.map (fun room? : Option RoomId => room?.getD .none) id)
      ((RoomId.wire.map some fun room? => room?.getD .none).read room ts)
      (RoomId.wire.read room ts) := by
  simp only [Codec.map, Codec.refine]
  cases RoomId.wire.read room ts with
  | error fault => exact .error fault
  | ok r => rfl

/-- A request as it was written is translated to the one that was meant, and has the same faults. -/
def translation : Fields.Translation (fun _ => True) WrittenJoin.fields fields :=
  .cons "authToken" (some "") id (fun _ _ => .refl _) <|
    .cons "roomId" (some none) (fun room? => room?.getD RoomId.none) room_follows .nil

/-- A request that names no room asks for `RoomId.none`, and one that names a room for that. -/
theorem decode_eq (bytes : List UInt8) :
    wire.decode bytes = (WrittenJoin.wire.decode bytes).map WrittenJoin.request := by
  have hfields : fields.codec.decode bytes =
      (WrittenJoin.fields.codec.decode bytes).map translation.value :=
    (translation.decode bytes).eq_map
  have hwire : wire.decode bytes = (fields.codec.decode bytes).map fun t => ⟨t.1, t.2.1⟩ :=
    Codec.decode_map ..
  have hwritten : WrittenJoin.wire.decode bytes =
      (WrittenJoin.fields.codec.decode bytes).map fun t => ⟨t.1, t.2.1⟩ :=
    Codec.decode_map ..
  rw [hwire, hwritten, hfields]
  cases WrittenJoin.fields.codec.decode bytes <;> rfl

example : wire.decode "\x7b\"authToken\":\"token-5\"\x7d".toUTF8.toList =
    .ok ⟨"token-5", .none⟩ := by
  rw [decode_eq]
  decide +kernel

end JoinRequest

end ChatRelay
