import ChatRelay.Proofs.Json.Front
import ChatRelay.Proofs.Message.RoundTrip
import ChatRelay.Proofs.Relay.Run
import ChatRelay.Push.Client
import Mathlib.Data.List.TakeWhile

/-!
# Pushing over the wire

A push that a caller makes through the push surface is the push made at the server itself: it
leaves the server in the same state and is acknowledged as a success, whoever is there to receive
it (`push_surface_spec`). Between the two lie the wording of the request, the table of routes, the
content type, the limit on bodies, reading the body and the acknowledgement; each has its lemma
here, and the round trip of the messages closes the circle.

A body is read from its front, and what stands behind its first value is not looked at. A post is
therefore refused, and changes nothing, if its body does not begin with a value that its route
takes; one that begins so is a push though it is no JSON text as a whole.
-/

namespace ChatRelay.Push

open Json

variable {s : Server} {now : Nat} {base : String} {r : Http.Request}

/-! ## The wording of a push -/

theorem baseUrl_eq_empty (h : ∀ c ∈ base.toList, c = '/') : baseUrl base = "" := by
  have hdrop : base.toList.reverse.dropWhile (· == '/') = [] :=
    List.dropWhile_eq_nil_iff.mpr fun c hc => beq_iff_eq.mpr (h c (List.mem_reverse.mp hc))
  rw [baseUrl, Text.trimEnd, hdrop]
  rfl

theorem ofTarget?_path (route : Route) : Route.ofTarget? route.path = some route := by
  cases route <;> decide +kernel

/-- The request of a push comes to the route of the push. -/
theorem ofTarget?_request (h : ∀ c ∈ base.toList, c = '/') (o : Order) :
    Route.ofTarget? (o.request base).target = some o.route := by
  have htarget : (o.request base).target = o.route.path := by
    rw [Order.request, baseUrl_eq_empty h]
    exact String.empty_append
  rw [htarget, ofTarget?_path]

/-! ## Reading a body -/

theorem prompt_msg : Msg.wire.Prompt Token.IsSettled :=
  Codec.Prompt.map (Fields.Prompt.codec ⟨Codec.prompt_scalar, Codec.prompt_scalar.refine,
    Codec.prompt_summarized, Codec.prompt_scalar, trivial⟩)

theorem prompt_pushUser : PushUser.wire.Prompt Token.IsSettled :=
  Codec.Prompt.map (Fields.Prompt.codec ⟨Codec.prompt_scalar.map, prompt_msg.toAny, trivial⟩)

theorem prompt_pushRoom : PushRoom.wire.Prompt Token.IsSettled :=
  Codec.Prompt.map (Fields.Prompt.codec ⟨Codec.prompt_scalar.map, prompt_msg.toAny, trivial⟩)

/-- The body begins with a value of the type that the route takes. -/
def Route.Takes (route : Route) (body : List UInt8) : Prop :=
  match route with
  | .pushSingle => ∃ p, PushUser.wire.decodeFront body = .ok p
  | .pushRoom | .pushRoomCount | .pushRoomInfo => ∃ p, PushRoom.wire.decodeFront body = .ok p
  | .health | .stats => False

/-- A route takes the bodies that ask for a push on it. -/
theorem Route.takes_iff {route : Route} {body : List UInt8} :
    route.Takes body ↔ ∃ o, Order.ofBody? route body = some (.ok o) := by
  cases route with
  | health | stats => exact ⟨False.elim, nofun⟩
  | pushSingle | pushRoom | pushRoomCount | pushRoomInfo =>
    constructor
    · rintro ⟨p, hp⟩
      simp [Order.ofBody?, hp, Except.map]
    · rintro ⟨o, ho⟩
      exact (exists_of_map_eq_ok (Option.some.inj ho)).imp fun _ => And.left

/-- What stands behind the value that a body begins with is not looked at. -/
theorem ofBody?_append {route : Route} {body : List UInt8} {o : Order}
    (h : Order.ofBody? route body = some (.ok o)) (rest : List UInt8) :
    Order.ofBody? route (body ++ rest) = some (.ok o) := by
  cases route with
  | health | stats => cases h
  | pushSingle =>
    obtain ⟨p, hp, rfl⟩ := exists_of_map_eq_ok (Option.some.inj h)
    simp only [Order.ofBody?, prompt_pushUser.decodeFront_append hp, Except.map]
  | pushRoom | pushRoomCount | pushRoomInfo =>
    obtain ⟨p, hp, rfl⟩ := exists_of_map_eq_ok (Option.some.inj h)
    simp only [Order.ofBody?, prompt_pushRoom.decodeFront_append hp, Except.map]

/-- The body of a push asks for the push. -/
theorem ofBody?_body (o : Order) : Order.ofBody? o.route o.body.toUTF8.toList = some (.ok o) := by
  have nested : 0 + 2 < Codec.nesting := by decide
  have huser (p : PushUser) :
      PushUser.wire.decodeFront (PushUser.wire.encode p).toUTF8.toList = .ok p :=
    Codec.decodeFront_of_decode (PushUser.lossless_wire.roundTrips nested p)
  have hroom (p : PushRoom) :
      PushRoom.wire.decodeFront (PushRoom.wire.encode p).toUTF8.toList = .ok p :=
    Codec.decodeFront_of_decode (PushRoom.lossless_wire.roundTrips nested p)
  cases o with
  | single user msg => simp only [Order.route, Order.body, Order.ofBody?, huser, Except.map]
  | room room msg | roomCount room msg | roomInfo room msg =>
    simp only [Order.route, Order.body, Order.ofBody?, hroom, Except.map]

/-! ## The answer to a post -/

/-- The reply to a push. -/
def acknowledgement : Http.Reply :=
  ⟨200, bytesOf (Reply.wire.encode .success)⟩

theorem accept_acknowledgement : accept (.reply acknowledgement) = .ok () := by
  have hread : Reply.wire.decode acknowledgement.body = .ok .success :=
    Reply.lossless_wire.roundTrips (by decide : 0 + 1 < Codec.nesting) .success
  rw [accept, if_pos (by decide), hread]
  rfl

/-- A post of JSON to the route, no longer than bodies may be. -/
structure IsPost (route : Route) (r : Http.Request) : Prop where
  method : r.method = "POST"
  target : Route.ofTarget? r.target = some route
  contentType : r.contentType.any Http.isJson = true
  length : r.body.length ≤ maxBody

theorem isPush_of_ofBody? {route : Route} {body : List UInt8} {o : Order}
    (h : Order.ofBody? route body = some (.ok o)) : route.isPush = true := by
  cases route with
  | health | stats => cases h
  | pushSingle | pushRoom | pushRoomCount | pushRoomInfo => rfl

/-- A post that asks for a push is answered by carrying out the push. -/
theorem respond_eq {route : Route} {o : Order} (hr : IsPost route r)
    (hbody : Order.ofBody? route r.body = some (.ok o)) :
    respond s now r = (acknowledgement, o.run s now) := by
  simp [respond, respondPush, hr.target, isPush_of_ofBody? hbody, hr.method, hr.contentType,
    Nat.not_lt.mpr hr.length, hbody, acknowledgement]

theorem isJson_jsonType : Http.isJson Http.jsonType = true := by
  decide +kernel

theorem isPost_request (hbase : ∀ c ∈ base.toList, c = '/') (o : Order)
    (hlength : (o.request base).body.length ≤ maxBody) : IsPost o.route (o.request base) where
  method := rfl
  target := ofTarget?_request hbase o
  contentType := isJson_jsonType
  length := hlength

/-- A push that comes over the wire is carried out. -/
theorem respond_request (hbase : ∀ c ∈ base.toList, c = '/') (o : Order)
    (hlength : (o.request base).body.length ≤ maxBody) :
    respond s now (o.request base) = (acknowledgement, o.run s now) :=
  respond_eq (isPost_request hbase o hlength) (ofBody?_body o)

/-- The answer is a client error, and the server is as it was. -/
def Refused (s : Server) (answer : Http.Reply × Server) : Prop :=
  (400 ≤ answer.1.status ∧ answer.1.status < 500) ∧ answer.2 = s

theorem refused_refusal {status : Nat} (h : 400 ≤ status ∧ status < 500) :
    Refused s (refusal status, s) :=
  ⟨h, rfl⟩

theorem faultStatus_bounds (fault : Fault) : 400 ≤ faultStatus fault ∧ faultStatus fault < 500 := by
  cases fault <;> simp [faultStatus]

/-- A post whose body begins with nothing that its route takes is refused. -/
theorem refused_of_not_takes (hmethod : r.method = "POST")
    (h : ∀ route, Route.ofTarget? r.target = some route → ¬ route.Takes r.body) :
    Refused s (respond s now r) := by
  unfold respond
  split
  case h_1 => exact refused_refusal (by decide)
  case h_2 route htarget =>
    have hroute := h route htarget
    split
    · rw [respondPush]
      split
      · split
        · exact refused_refusal (by decide)
        · split
          next hbody => exact absurd (Route.takes_iff.mpr ⟨_, hbody⟩) hroute
          next fault _ => exact refused_refusal (faultStatus_bounds fault)
          next => exact refused_refusal (by decide)
      · exact refused_refusal (by decide)
    · rw [hmethod]
      exact refused_refusal (by decide)

/-! ## Main result -/

/-- The push is acknowledged as a success and leaves the server as `after`, provided that its body
is no longer than bodies may be. -/
def CarriedOut (s : Server) (now : Nat) (base : String) (o : Order) (after : Server) : Prop :=
  (o.request base).body.length ≤ maxBody →
    accept (.reply (respond s now (o.request base)).1) = .ok () ∧
      (respond s now (o.request base)).2 = after

/-- **The push surface is the server.** Each of the four pushes of a client, sent to the surface
with or without slashes at the end of the base path, is acknowledged as a success and leaves the
server exactly as the push of the same name at the server does. Every post of JSON whose body begins
with a value that its route takes is such a push, and what stands behind that value makes no
difference. A post whose body does not begin so is refused with a client error and leaves the server
as it was. -/
theorem push_surface_spec (s : Server) (now : Nat) {base : String}
    (hbase : ∀ c ∈ base.toList, c = '/') :
    (∀ user msg, CarriedOut s now base (.single user msg) (s.pushUser now user msg).2) ∧
      (∀ room msg, CarriedOut s now base (.room room msg) (s.pushRoom now room msg)) ∧
      (∀ room msg, CarriedOut s now base (.roomCount room msg) (s.pushRoomCount now room msg)) ∧
      (∀ room msg, CarriedOut s now base (.roomInfo room msg) (s.pushRoomInfo now room msg)) ∧
      (∀ (route : Route) (r : Http.Request), IsPost route r → route.Takes r.body →
        (∃ o, Order.ofBody? route r.body = some (.ok o) ∧
          respond s now r = (acknowledgement, o.run s now)) ∧
        ∀ rest, (r.body ++ rest).length ≤ maxBody →
          respond s now { r with body := r.body ++ rest } = respond s now r) ∧
      ∀ r : Http.Request, r.method = "POST" →
        (∀ route, Route.ofTarget? r.target = some route → ¬ route.Takes r.body) →
          Refused s (respond s now r) := by
  have hcarried (o : Order) : CarriedOut s now base o (o.run s now) := by
    intro hlength
    rw [respond_request hbase o hlength]
    exact ⟨accept_acknowledgement, rfl⟩
  refine ⟨fun _ _ => hcarried _, fun _ _ => hcarried _, fun _ _ => hcarried _,
    fun _ _ => hcarried _, ?_, fun _ => refused_of_not_takes⟩
  intro route r hr htakes
  obtain ⟨o, hbody⟩ := Route.takes_iff.mp htakes
  refine ⟨⟨o, hbody, respond_eq hr hbody⟩, fun rest hlength => ?_⟩
  have hlonger : IsPost route { r with body := r.body ++ rest } := { hr with length := hlength }
  rw [respond_eq hlonger (ofBody?_append hbody rest), respond_eq hr hbody]

/-- A message in quotes and beyond ASCII reaches the member of the room that it is pushed to, with
brackets behind its body as without, and a body that breaks off is refused. -/
theorem push_surface_spec_delivered :
    let s₀ := Server.new "relay" .standard ⟨2, 16, 16, 1, 1⟩ ⟨0, by decide, 0, 0⟩
    let s := s₀.after [.call .openChannel, .call (.finishJoin ⟨0⟩ ⟨7⟩ (.ok ⟨5⟩))]
    let msg : Msg := ⟨1, .roomSend, ⟨0⟩, "say \"né\""⟩
    let r := (Order.room ⟨7⟩ msg).request "/"
    let answer := respond s 1704067200001 r
    let cut := Http.post "/rpc/push-room" "\x7b\"roomId\":"
    accept (.reply answer.1) = .ok () ∧ answer.2 = s.pushRoom 1704067200001 ⟨7⟩ msg ∧
      (answer.2.runWorkers.drain ⟨0⟩).1.map (·.body) = ["say \"né\""] ∧
      respond s 1704067200001 { r with body := r.body ++ bytesOf "\x7b\x7d" } = answer ∧
      Refused s (respond s 1704067200001 cut) := by
  intro s₀ s msg r answer cut
  obtain ⟨-, hroom, -, -, hpost, hrefused⟩ := @push_surface_spec s 1704067200001 "/" (by simp)
  have hlength : r.body.length ≤ maxBody := by decide +kernel
  have hcarried := hroom ⟨7⟩ msg hlength
  have htakes : Route.pushRoom.Takes r.body :=
    Route.takes_iff.mpr ⟨_, ofBody?_body (.room ⟨7⟩ msg)⟩
  have hbehind := (hpost .pushRoom r (isPost_request (by simp) _ hlength) htakes).2
    (bytesOf "\x7b\x7d") (by decide +kernel)
  have hcut : ∀ route, Route.ofTarget? cut.target = some route → ¬ route.Takes cut.body := by
    intro route htarget
    have hroute := Option.some.inj ((ofTarget?_path .pushRoom).symm.trans htarget)
    subst hroute
    have hfault : PushRoom.wire.decodeFront cut.body = .error .truncated := by decide +kernel
    rintro ⟨p, hp⟩
    cases hfault.symm.trans hp
  exact ⟨hcarried.1, hcarried.2, by decide +kernel, hbehind, hrefused cut rfl hcut⟩

/-- The body of a push with two more brackets behind it is no JSON text as a whole, and yet it is a
push: it is acknowledged, and the message reaches the member of the room. -/
theorem push_with_text_behind :
    let s₀ := Server.new "relay" .standard ⟨2, 16, 16, 1, 1⟩ ⟨0, by decide, 0, 0⟩
    let s := s₀.after [.call .openChannel, .call (.finishJoin ⟨0⟩ ⟨7⟩ (.ok ⟨5⟩))]
    let r := Http.post "/rpc/push-room"
      (PushRoom.wire.encode ⟨⟨7⟩, ⟨1, .roomSend, ⟨9⟩, "hello"⟩⟩ ++ "\x7b\x7d")
    Route.ofTarget? r.target = some .pushRoom ∧ PushRoom.wire.decode r.body = .error .malformed ∧
      (respond s 0 r).1.status = 200 ∧ ¬ Refused s (respond s 0 r) ∧
      (s.runWorkers.drain ⟨0⟩).1 = [] ∧
      ((respond s 0 r).2.runWorkers.drain ⟨0⟩).1 = [⟨1, .roomSend, ⟨9⟩, "hello"⟩] := by
  intro s₀ s r
  have hstatus : (respond s 0 r).1.status = 200 := by decide +kernel
  have haccepted : ¬ Refused s (respond s 0 r) := by
    rintro ⟨⟨hclient, -⟩, -⟩
    rw [hstatus] at hclient
    exact absurd hclient (by decide)
  exact ⟨by decide +kernel, by decide +kernel, hstatus, haccepted, by decide +kernel,
    by decide +kernel⟩

end ChatRelay.Push
