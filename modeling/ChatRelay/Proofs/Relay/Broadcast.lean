import ChatRelay.Proofs.Relay.Stamping

/-!
# Messages to rooms

A push to a room goes through three stages. The message is stamped once, and put as one job on the
queue of one worker in every bucket, unless that queue is full. The queues hand jobs on in the order
in which they came, whatever happens in between. When a worker performs a job, the room is looked up
in its bucket: who is a member at this moment is offered one copy, nobody else is, and what becomes
of a copy is decided by the mailbox it is for.
-/

namespace ChatRelay

/-- The kinds of pushes to a room. -/
inductive RoomPush where
  | message
  | count
  | info

namespace RoomPush

def call (now : Nat) (room : RoomId) (msg : Msg) : RoomPush → Call
  | message => .pushRoom now room msg
  | count => .pushRoomCount now room msg
  | info => .pushRoomInfo now room msg

/-- The operation code of what is delivered. -/
def op (msg : Msg) : RoomPush → OpCode
  | message => msg.op
  | count => .roomCountSend
  | info => .roomInfoSend

theorem roomPush?_call (p : RoomPush) (now : Nat) (room : RoomId) (msg : Msg) :
    (p.call now room msg).roomPush? = some (now, room, { msg with op := p.op msg }) := by
  cases p <;> rfl

end RoomPush

namespace Server

variable {s : Server} {w : WorkerRef} {job : Job} {rest : List Job}

/-! ## Through the queues -/

/-- The job that a move puts on the queue of a worker, if there is one. -/
def arrival (s : Server) (w : WorkerRef) : Move → List Job
  | .call k =>
    match k.roomPush? with
    | some (now, room, msg) => if s.hub.accepts w then [⟨room, (s.stamp now msg).1⟩] else []
    | none => []
  | .work _ => []

/-- The job that a move takes off the queue of a worker, if there is one. -/
def departure (s : Server) (w : WorkerRef) : Move → List Job
  | .call _ => []
  | .work w' => if w' = w then (s.hub.queue w).take 1 else []

/-- The jobs that a worker is given in a run, in order. -/
def arrivals (s : Server) (w : WorkerRef) : List Move → List Job
  | [] => []
  | m :: ms => s.arrival w m ++ (s.step m).2.arrivals w ms

/-- The jobs that a worker performs in a run, in order. -/
def departures (s : Server) (w : WorkerRef) : List Move → List Job
  | [] => []
  | m :: ms => s.departure w m ++ (s.step m).2.departures w ms

theorem queue_step (hs : s.hub.Sound) (hst : s.hub.Staffed) (m : Move) (w : WorkerRef) :
    s.hub.queue w ++ s.arrival w m = s.departure w m ++ (s.step m).2.hub.queue w := by
  cases m with
  | call k =>
    cases hp : k.roomPush? with
    | none =>
      have hsame := sameQueues_call hs hp
      simp only [arrival, hp, departure, hsame.queue, List.append_nil, List.nil_append]
    | some p =>
      obtain ⟨now, room, msg⟩ := p
      simp only [arrival, hp, departure, step_of_roomPush hp, hst.queue_broadcastAll,
        List.nil_append]
  | work w' =>
    change s.hub.queue w ++ [] = s.departure w (.work w') ++ (s.hub.work w').queue w
    rw [List.append_nil, departure]
    cases hq : s.hub.queue w' with
    | nil =>
      rw [Hub.work_of_nil hq]
      split
      next he =>
        rw [← he, hq]
        rfl
      next => rfl
    | cons job rest =>
      rw [Hub.queue_work hq]
      by_cases he : w' = w
      · subst he
        rw [if_pos rfl, if_pos rfl, hq]
        rfl
      · rw [if_neg he, if_neg (Ne.symm he)]
        rfl

/-- What waited and what came is what was performed and what waits now, in the same order. -/
theorem queue_after (hs : s.hub.Sound) (hst : s.hub.Staffed) (ms : List Move) (w : WorkerRef) :
    s.hub.queue w ++ s.arrivals w ms = s.departures w ms ++ (s.after ms).hub.queue w := by
  induction ms generalizing s with
  | nil => exact List.append_nil _
  | cons m ms ih =>
    have hstep := queue_step hs hst m w
    have hrest := ih ((step_outcome hs m).sound hs) (staffed_step hs hst m)
    calc s.hub.queue w ++ s.arrivals w (m :: ms)
        = (s.hub.queue w ++ s.arrival w m) ++ (s.step m).2.arrivals w ms := by
          rw [arrivals, List.append_assoc]
      _ = s.departure w m ++ ((s.step m).2.hub.queue w ++ (s.step m).2.arrivals w ms) := by
          rw [hstep, List.append_assoc]
      _ = s.departures w (m :: ms) ++ (s.after (m :: ms)).hub.queue w := by
          rw [hrest, departures, List.append_assoc]
          rfl

/-! ## Queueing -/

/-- A job is put on the queue of the worker whose turn it is, in every bucket where this queue is
not full; the turn passes on, and nothing else changes. -/
structure Queues (s : Server) (job : Job) (s' : Server) : Prop where
  buckets : ∀ (i : Nat) (b : Bucket), s.hub.buckets[i]? = some b → b.nextWorker < b.workerCount ∧
    ∃ queues, s'.hub.buckets[i]? = some { b with queues, turn := b.turn + 1 } ∧
      queues.length = b.workerCount ∧ ∀ k, queues.getD k [] =
        b.queue k ++ if k = b.nextWorker ∧ (b.queue k).length < b.queueBound then [job] else []
  count : s'.hub.buckets.length = s.hub.buckets.length
  roster : s'.hub.roster = s.hub.roster

theorem queues_broadcastAll (hst : s.hub.Staffed) (now : Nat) (room : RoomId) (msg : Msg) :
    s.Queues ⟨room, (s.stamp now msg).1⟩
      { (s.stamp now msg).2 with hub := s.hub.broadcastAll room (s.stamp now msg).1 } where
  buckets i b hb := by
    have hne := hst.workers i b hb
    refine ⟨Bucket.nextWorker_lt hne, (b.broadcast room (s.stamp now msg).1).2.queues, ?_, ?_, ?_⟩
    · simp only [Hub.broadcastAll_bucket, hb, Option.map_some, Bucket.broadcast_eq]
      split <;> rfl
    · rw [Bucket.broadcast_eq]
      split
      next => rfl
      next => exact List.length_modify ..
    · intro k
      refine (Bucket.queue_broadcast hne room _ k).trans ?_
      congr 1
      by_cases hk : k = b.nextWorker
      · subst hk
        by_cases hf : b.isFull
        · simp [Bucket.accepts, hf, Nat.not_lt.mpr hf]
        · simp [Bucket.accepts, hf, Nat.lt_of_not_le hf]
      · simp [Bucket.accepts, hk]
  count := Hub.length_buckets_broadcastAll ..
  roster := Hub.broadcastAll_roster ..

/-! ## Performing -/

/-- A worker performs its oldest job: the channels that are members of the room in the worker's
bucket are offered the message once each, no other channel is, and each copy is lost only to its
own mailbox. -/
structure Performs (s : Server) (w : WorkerRef) (job : Job) (rest : List Job) (s' : Server) :
    Prop where
  queue : ∀ w', s'.hub.queue w' = if w' = w then rest else s.hub.queue w'
  channels : ∀ c, s'.channel? c = (s.channel? c).map fun ch =>
    if c ∈ s.hub.membersOf w.bucket job.room then (ch.push job.msg).2 else ch
  waiting : ∀ c channel, s.channel? c = some channel → ∃ channel', s'.channel? c = some channel' ∧
    channel'.mailbox.waiting = channel.mailbox.waiting ++
      if c ∈ s.hub.membersOf w.bucket job.room ∧ channel.mailbox.isOpen = true ∧
        channel.mailbox.waiting.length < channel.mailbox.capacity then [job.msg] else []
  /-- A room that is not there takes nothing. -/
  absent : s.hub.roomAt w.bucket job.room = none → s'.hub.roster = s.hub.roster
  roomAt : ∀ i id, s'.hub.roomAt i id = s.hub.roomAt i id
  userAt : ∀ i user, s'.hub.userAt i user = s.hub.userAt i user
  rest : s' = { s with hub := s'.hub }

theorem performs_work (hs : s.hub.Sound) (hq : s.hub.queue w = job :: rest) :
    s.Performs w job rest { s with hub := s.hub.work w } := by
  have hroster := hs.work_roster hq
  have hchannels : ∀ c, (s.hub.work w).roster.channel? c = (s.channel? c).map fun ch =>
      if c ∈ s.hub.membersOf w.bucket job.room then (ch.push job.msg).2 else ch := by
    intro c
    rw [hroster, Roster.channel?_mapMail]
    unfold Roster.offerTo
    split <;> rfl
  refine ⟨Hub.queue_work hq, hchannels, ?_, ?_, s.hub.roomAt_work w, s.hub.userAt_work w, rfl⟩
  · intro c channel hc
    have hchannel := hchannels c
    rw [hc, Option.map_some] at hchannel
    refine ⟨_, hchannel, ?_⟩
    by_cases hm : c ∈ s.hub.membersOf w.bucket job.room
    · simp only [hm, true_and, if_true]
      refine (Mailbox.waiting_offer channel.mailbox job.msg).trans ?_
      simp only [Mailbox.offer_fst_eq_accepted]
    · simp [hm]
  · intro habsent
    have hnone : s.hub.membersOf w.bucket job.room = [] := by
      rw [Hub.membersOf, habsent, Option.elim_none]
    change (s.hub.work w).roster = s.hub.roster
    rw [hroster, hnone]
    exact Roster.mapMail_id _

/-! ## From the push to the copies -/

theorem stampTime?_roomPush (s : Server) (p : RoomPush) (now : Nat) (room : RoomId) (msg : Msg) :
    s.stampTime? (.call (p.call now room msg)) =
      if msg.seq.isUnassigned then some now else none := by
  cases p <;> rfl

/-- In every reachable state: a push stamps its message once and queues it in every bucket; the
queues keep the order whatever follows; and performing a job gives one copy to each member. The
message keeps the id that it has. Else it is given an id of the server's worker that is assigned and
later than all that messages were given before, as long as the clock is in the era of the ids. -/
theorem room_push_spec (id : String) (options : ConnectionOptions) (config : BucketConfig)
    (generator : SequenceId.Generator) (ms : List Move) :
    let s₀ := new id options config generator
    let s := s₀.after ms
    (∀ (p : RoomPush) (now : Nat) (room : RoomId) (msg : Msg),
      let push := Move.call (p.call now room msg)
      let seq := s.seqFor now msg
      let s' := (s.step push).2
      s.Queues ⟨room, { msg with op := p.op msg, seq }⟩ s' ∧
      (s'.generator = if msg.seq.isUnassigned then (s.generator.issue now).2 else s.generator) ∧
      (msg.seq.isUnassigned = false → seq = msg.seq) ∧
      (msg.seq.isUnassigned = true → s₀.issued (ms ++ [push]) = s₀.issued ms ++ [seq] ∧
        ∀ w, SequenceId.Generator.new? w = some generator →
          (∀ r ∈ s₀.readings (ms ++ [push]), SequenceId.InEra r) →
          SequenceId.Generator.Succeeds w (s₀.issued ms) seq)) ∧
    (∀ ms' w, s.hub.queue w ++ s.arrivals w ms' =
      s.departures w ms' ++ (s.after ms').hub.queue w) ∧
    ∀ w, match s.hub.queue w with
      | [] => (s.step (.work w)).2 = s
      | job :: rest => (s.hub.membersOf w.bucket job.room).Nodup ∧
        s.Performs w job rest (s.step (.work w)).2 := by
  intro s₀ s
  have hs₀ : s₀.hub.Sound := Hub.sound_new config
  have hs : s.hub.Sound := sound_after hs₀ ms
  have hst : s.hub.Staffed := staffed_after hs₀ (Hub.staffed_new config) ms
  refine ⟨?_, queue_after hs hst, ?_⟩
  · intro p now room msg push seq s'
    have hqueues := queues_broadcastAll hst now room { msg with op := p.op msg }
    have hs' : s' = { (s.stamp now { msg with op := p.op msg }).2 with
        hub := s.hub.broadcastAll room (s.stamp now { msg with op := p.op msg }).1 } := by
      rw [show s' = (s.step push).2 from rfl, step_of_roomPush (p.roomPush?_call now room msg)]
    refine ⟨?_, ?_, ?_, ?_⟩
    · rw [hs']
      rwa [stamp_fst] at hqueues ⊢
    · rw [hs']
      exact stamp_generator s now { msg with op := p.op msg }
    · intro hassigned
      rw [show seq = s.seqFor now msg from rfl, seqFor, hassigned, if_neg Bool.false_ne_true]
    · intro hunassigned
      have hseq : seq = (s.generator.issue now).1 := if_pos hunassigned
      have hstamp : s.stampTime? push = some now := by
        rw [stampTime?_roomPush, if_pos hunassigned]
      refine ⟨?_, fun w hg hclock => ?_⟩
      · rw [issued_concat, hstamp, hseq]
        rfl
      · rw [hseq]
        exact succeeds_issue hs₀ hg ms hstamp hclock
  · intro w
    cases hq : s.hub.queue w with
    | nil =>
      change { s with hub := s.hub.work w } = s
      rw [Hub.work_of_nil hq]
    | cons job rest => exact ⟨hs.nodup_membersOf _ _, performs_work hs hq⟩

/-- The second of two pushes in one millisecond. -/
theorem room_push_spec_twice :
    let now := 1704067200005
    let msg : Msg := ⟨1, .roomSend, .unassigned, "hi"⟩
    let push := Move.call (.pushRoom now ⟨7⟩ msg)
    ∃ generator, SequenceId.Generator.new? 42 = some generator ∧
      let s₀ := new "gw-1" .standard ⟨2, 8, 8, 2, 4⟩ generator
      s₀.issued [push] = [.ofFields now 42 0] ∧
      (SequenceId.ofFields now 42 0).value < ((s₀.after [push]).seqFor now msg).value := by
  intro now msg push
  let generator : SequenceId.Generator := ⟨42, by decide, 0, 0⟩
  let s₀ := new "gw-1" .standard ⟨2, 8, 8, 2, 4⟩ generator
  have hissued : s₀.issued [push] = [.ofFields now 42 0] := by decide +kernel
  have hreadings : s₀.readings [push, push] = [now, now] := by decide +kernel
  have hclock : ∀ r ∈ s₀.readings [push, push], SequenceId.InEra r := by
    intro r hr
    simp only [hreadings, List.mem_cons, List.not_mem_nil, or_false, or_self] at hr
    unfold SequenceId.InEra SequenceId.epoch
    omega
  have hspec := (room_push_spec "gw-1" .standard ⟨2, 8, 8, 2, 4⟩ generator [push]).1 .message now
    ⟨7⟩ msg
  have hsucceeds := (hspec.2.2.2 rfl).2 42 rfl hclock
  exact ⟨generator, rfl, hissued, hsucceeds.later _ (hissued ▸ List.mem_cons_self)⟩

end Server

end ChatRelay
