import ChatRelay.Gateway.Basic
import ChatRelay.Proofs.Frame.InPlace
import ChatRelay.Proofs.Frame.Stream

/-!
# What a peer reads from a writer

The writer of a raw connection frames one thing after the other, a message's body or a heartbeat,
into a buffer that it hands to the transport each time. A body that does not fit into a frame is
refused before anything of it is written, and the writer goes on. So the peer finds every other body
whole, in order, with the heartbeats where they were due, and nothing else (`serveAll_stream`): a
byte too many or too few would shift all frames behind it. These bytes are also what the gateway
reports of a raw client.
-/

namespace ChatRelay

/-! ## Frames one after another -/

namespace Frame.Decoder

variable {d : Decoder}

/-- A stream of frames yields their payloads. -/
theorem decodeAll_frames {payloads : List Bytes}
    (h : ∀ payload ∈ payloads, payload.length ≤ d.maxPayload) :
    d.decodeAll (payloads.flatMap frame) = ⟨payloads, none, []⟩ := by
  induction payloads with
  | nil =>
    rw [List.flatMap_nil, decodeAll_eq, decode_nil]
  | cons payload payloads ih =>
    rw [List.forall_mem_cons] at h
    have hfirst : d.decode (frame payload ++ payloads.flatMap frame) =
        (.ok (some payload), payloads.flatMap frame) :=
      decode_garbage_frame (by decide : ¬ versionTag <:+: []) h.1 _
    rw [List.flatMap_cons, decodeAll_eq, hfirst]
    show (d.decodeAll (payloads.flatMap frame)).after [payload] = _
    rw [ih h.2]
    rfl

end Frame.Decoder

namespace Transport

open ChatRelay.Frame

/-! ## The writer -/

/-- The writing end of a raw connection: framed bytes that are held back, and the bytes that the
transport has taken. -/
structure Sink where
  held : Bytes
  sent : Bytes
  deriving DecidableEq, Repr

/-- Frame a payload, and hand what is held to the transport. A payload that cannot be framed is
refused first. -/
def Sink.send (s : Sink) (payload : Bytes) : Except FrameError Unit × Sink :=
  match packInPlace maxEncodable payload s.held with
  | (.ok (), held) => (.ok (), ⟨[], s.sent ++ held⟩)
  | (.error e, held) => (.error e, { s with held })

/-- The writer of a raw connection whose transport takes all that is handed to it. -/
structure Writer where
  sink : Sink
  isRunning : Bool
  deriving DecidableEq, Repr

namespace Writer

/-- The writer of a connection that was just accepted. -/
def fresh : Writer := ⟨⟨[], []⟩, true⟩

/-- Send what was taken out of the mailbox, or a heartbeat. A payload that is too large is dropped,
and any other fault ends the writer. -/
def serve (w : Writer) (o : Outgoing) : Writer :=
  if w.isRunning then
    match w.sink.send o.payload with
    | (.ok (), sink) => { w with sink }
    | (.error (.tooLarge _ _), sink) => { w with sink }
    | (.error _, sink) => ⟨sink, false⟩
  else w

def serveAll (w : Writer) (os : List Outgoing) : Writer :=
  os.foldl serve w

/-- A writer that is running, holds nothing back and has sent these bytes. -/
def flushed (sent : Bytes) : Writer := ⟨⟨[], sent⟩, true⟩

/-- Whatever is sent, the writer goes on and holds nothing back: either the whole frame is on the
wire or nothing of it. -/
theorem serve_flushed (sent : Bytes) (o : Outgoing) :
    (flushed sent).serve o = flushed (sent ++ o.bytes) := by
  unfold serve flushed Sink.send Outgoing.bytes Outgoing.frame
  rw [packInPlace_eq, pack]
  by_cases hlarge : min maxEncodable maxEncodable < headerSize + o.payload.length
  · simp only [if_pos hlarge, List.append_nil, if_true]
  · simp only [if_neg hlarge, List.nil_append, if_true]

theorem serveAll_flushed (sent : Bytes) (os : List Outgoing) :
    (flushed sent).serveAll os = flushed (sent ++ stream os) := by
  induction os generalizing sent with
  | nil =>
    show flushed sent = flushed (sent ++ [])
    rw [List.append_nil]
  | cons o os ih =>
    calc (flushed sent).serveAll (o :: os)
        = ((flushed sent).serve o).serveAll os := rfl
      _ = flushed (sent ++ o.bytes ++ stream os) := by rw [serve_flushed, ih]
      _ = flushed (sent ++ stream (o :: os)) := by
        rw [List.append_assoc, stream, stream, List.flatMap_cons]

end Writer

/-! ## The peer -/

/-- The length of the longest payload that can be framed. -/
def payloadLimit : Nat := 65531

namespace Outgoing

/-- What arrives at the peer: the bytes of a body, unless they are too many, and of a heartbeat. -/
def arrivals : Outgoing → List Bytes
  | message msg =>
    if msg.body.toUTF8.toList.length ≤ payloadLimit then [msg.body.toUTF8.toList] else []
  | heartbeat => [heartbeatText.toUTF8.toList]

theorem length_payload_heartbeat : heartbeat.payload.length ≤ payloadLimit := by decide +kernel

theorem arrivals_eq (o : Outgoing) :
    o.arrivals = if o.payload.length ≤ payloadLimit then [o.payload] else [] := by
  cases o with
  | message msg => rfl
  | heartbeat => exact (if_pos length_payload_heartbeat).symm

/-- The bytes of an outgoing thing are the frame of what arrives. -/
theorem bytes_eq (o : Outgoing) : o.bytes = o.arrivals.flatMap Frame.frame := by
  have hfits : o.payload.length ≤ payloadLimit ↔
      ¬ min maxEncodable maxEncodable < headerSize + o.payload.length := by
    simp only [payloadLimit, maxEncodable, headerSize]
    omega
  rw [arrivals_eq, bytes, Outgoing.frame, pack]
  by_cases h : o.payload.length ≤ payloadLimit
  · rw [if_pos h, if_neg (hfits.mp h)]
    exact (List.flatMap_singleton _ _).symm
  · rw [if_neg h, if_pos (Decidable.not_not.mp (mt hfits.mpr h))]
    rfl

theorem length_of_mem_arrivals {o : Outgoing} {payload : Bytes} (h : payload ∈ o.arrivals) :
    payload.length ≤ payloadLimit := by
  rw [arrivals_eq] at h
  split at h
  next hle =>
    rw [List.mem_singleton] at h
    rwa [h]
  next => cases h

end Outgoing

theorem stream_eq (os : List Outgoing) :
    stream os = (os.flatMap Outgoing.arrivals).flatMap Frame.frame := by
  have hbytes : Outgoing.bytes = fun o => o.arrivals.flatMap Frame.frame := funext Outgoing.bytes_eq
  rw [stream, hbytes, List.flatMap_assoc]

end Transport

/-! ## The gateway -/

/-- The bytes that a client of this name received. -/
def Report.bytesOf (r : Report) (name : String) : Frame.Bytes :=
  r.received.flatMap fun x =>
    match x with
    | (receiver, .bytes bytes) => if receiver = name then bytes else []
    | _ => []

namespace Gateway

variable {c : Client} {buffer : Frame.Bytes}

/-- A raw client receives the bytes that are put on its connection. -/
theorem bytesOf_send (hraw : c.wire = .raw buffer) (g : Gateway) (o : Transport.Outgoing) :
    (g.send c o).report.bytesOf c.name = g.report.bytesOf c.name ++ o.bytes := by
  have hreport : ∀ bytes, (g.noteReceived c (.bytes bytes)).report.bytesOf c.name =
      g.report.bytesOf c.name ++ bytes := by
    intro bytes
    simp only [Report.bytesOf, noteReceived, List.flatMap_append, List.flatMap_singleton, if_true]
  unfold send Transport.Outgoing.bytes
  simp only [hraw]
  cases o.frame with
  | ok framed => exact hreport framed
  | error e => cases e <;> exact (List.append_nil _).symm

theorem bytesOf_foldl_send (hraw : c.wire = .raw buffer) (g : Gateway)
    (os : List Transport.Outgoing) :
    (os.foldl (fun g o => g.send c o) g).report.bytesOf c.name =
      g.report.bytesOf c.name ++ Transport.stream os := by
  induction os generalizing g with
  | nil => exact (List.append_nil _).symm
  | cons o os ih =>
    rw [List.foldl_cons, ih, bytesOf_send hraw, List.append_assoc]
    rfl

end Gateway

namespace Transport

open ChatRelay.Frame

/-- Whatever messages a writer takes out of the mailbox, and whenever heartbeats are due, it keeps
running, holds nothing back, and the peer reads exactly the bodies that fit into a frame, each
whole, in the order of the mailbox, with one heartbeat where each was due: no error, and nothing
left over. A longer body puts no byte on the wire and changes nothing. A gateway that sends the same
to a raw client reports these bytes. -/
theorem serveAll_stream (os : List Outgoing) :
    let w := Writer.fresh.serveAll os
    w.isRunning = true ∧ w.sink.held = [] ∧
    (Decoder.new 65535).decodeAll w.sink.sent = ⟨os.flatMap Outgoing.arrivals, none, []⟩ ∧
    (∀ msg : Msg, payloadLimit < msg.body.toUTF8.toList.length → w.serve (.message msg) = w) ∧
    ∀ (g : Gateway) (c : Client) (buffer : Bytes), c.wire = .raw buffer →
      (os.foldl (fun g o => g.send c o) g).report.bytesOf c.name =
        g.report.bytesOf c.name ++ w.sink.sent := by
  have hw : Writer.fresh.serveAll os = Writer.flushed (stream os) := Writer.serveAll_flushed [] os
  rw [hw]
  refine ⟨rfl, rfl, ?_, fun msg hlong => ?_, fun g c buffer hraw => ?_⟩
  · show (Decoder.new 65535).decodeAll (stream os) = _
    rw [stream_eq]
    apply Decoder.decodeAll_frames
    intro payload hpayload
    obtain ⟨o, -, ho⟩ := List.mem_flatMap.mp hpayload
    exact Outgoing.length_of_mem_arrivals ho
  · have hnone : (Outgoing.message msg).arrivals = [] := if_neg (Nat.not_le.mpr hlong)
    rw [Writer.serve_flushed, Outgoing.bytes_eq, hnone, List.flatMap_nil, List.append_nil]
  · exact Gateway.bytesOf_foldl_send hraw g os

end Transport

end ChatRelay
