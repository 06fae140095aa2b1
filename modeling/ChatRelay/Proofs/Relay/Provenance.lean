import ChatRelay.Proofs.Relay.Broadcast
import Mathlib.Data.List.Induction
import Mathlib.Data.List.Nodup

/-!
# Where the messages of a mailbox come from

The journal of a run lists every offer of a message to a channel, move by move. Who is offered what
is read off the server as it is before the move: a push to a user goes to the channel that is
registered for the user at that moment, a job to the members that its room has when it is performed.
An offer is known by its origin, which is the push itself or the place of the job among all jobs
that its worker was ever given.

The journal is then compared with the mailboxes. What a writer has taken out of a mailbox, followed
by what still waits there, is what the journal says was accepted, message for message.
-/

namespace ChatRelay

/-! ## Accounts of a mailbox -/

/-- What was taken out and what waits is what was accepted, up to what a writer that has gone away
left behind. -/
def Mailbox.Accounts (m : Mailbox) (taken accepted : List Msg) : Prop :=
  ∃ lost, taken ++ m.waiting ++ lost = accepted ∧ (m.isOpen = true → lost = [])

/-- What one move can do to the mailbox of a channel, with what is taken out and what is
accepted. -/
inductive MailChange (bound : Nat) :
    Option Mailbox → List Msg → List Msg → Option Mailbox → Prop
  | keep {m : Option Mailbox} : MailChange bound m [] [] m
  | opened : MailChange bound none [] [] (some (.new bound))
  | offered {m : Mailbox} {msg : Msg} : MailChange bound (some m) []
    (if (m.offer msg).1 = .accepted then [msg] else []) (some (m.offer msg).2)
  | taken {m : Mailbox} {n : Nat} : MailChange bound (some m) (m.take n).1 [] (some (m.take n).2)
  | closed {m : Mailbox} : MailChange bound (some m) [] [] (some m.close)

/-- A mailbox that refuses a message stays as it is. -/
theorem Mailbox.offer_snd_of_dropped {m : Mailbox} {msg : Msg}
    (h : (m.offer msg).1 = .dropped) : (m.offer msg).2 = m := by
  unfold Mailbox.offer at h ⊢
  split
  next ha => simp [ha] at h
  next => rfl

namespace MailChange

variable {bound : Nat} {m m' : Option Mailbox} {taken accepted taken' accepted' : List Msg}

theorem of_eq (h : m' = m) : MailChange bound m [] [] m' :=
  h ▸ .keep

/-- The accounts of a channel; before it is opened they are empty. -/
def Accounts (m : Option Mailbox) (taken accepted : List Msg) : Prop :=
  match m with
  | none => taken = [] ∧ accepted = []
  | some m => m.Accounts taken accepted

/-- Accounts that are right stay right. -/
theorem accounts (hc : MailChange bound m taken' accepted' m') (hm : Accounts m taken accepted) :
    Accounts m' (taken ++ taken') (accepted ++ accepted') := by
  cases hc with
  | keep =>
    rw [List.append_nil, List.append_nil]
    exact hm
  | opened =>
    obtain ⟨rfl, rfl⟩ := hm
    exact ⟨[], rfl, fun _ => rfl⟩
  | @offered m msg =>
    obtain ⟨lost, hlost, hopen⟩ := hm
    rw [List.append_nil]
    cases hd : (m.offer msg).1 with
    | accepted =>
      -- A mailbox that accepts is open, so nothing was left behind in it.
      have hisOpen : m.isOpen = true := (Mailbox.offer_fst_eq_accepted.mp hd).1
      obtain rfl := hopen hisOpen
      refine ⟨[], ?_, fun _ => rfl⟩
      rw [Mailbox.waiting_offer, hd, ← hlost]
      simp only [List.append_nil, List.append_assoc]
    | dropped =>
      rw [Mailbox.offer_snd_of_dropped hd]
      refine ⟨lost, ?_, hopen⟩
      rw [hlost]
      exact (List.append_nil _).symm
  | @taken m n =>
    obtain ⟨lost, hlost, hopen⟩ := hm
    refine ⟨lost, ?_, hopen⟩
    change taken ++ m.waiting.take n ++ m.waiting.drop n ++ lost = accepted ++ []
    rw [List.append_assoc taken, List.take_append_drop, hlost, List.append_nil]
  | @closed m =>
    obtain ⟨lost, hlost, -⟩ := hm
    refine ⟨m.waiting ++ lost, ?_, nofun⟩
    change taken ++ [] ++ [] ++ (m.waiting ++ lost) = accepted ++ []
    simp only [List.append_nil, ← hlost, List.append_assoc]

/-- A mailbox holds as many messages as its server gives to each. -/
theorem capacity (hc : MailChange bound m taken' accepted' m')
    (hm : ∀ b ∈ m, b.capacity = max bound 1) : ∀ b ∈ m', b.capacity = max bound 1 := by
  cases hc with
  | keep => exact hm
  | opened =>
    rintro b ⟨⟩
    rfl
  | @offered m msg =>
    rintro b ⟨⟩
    have hkeep : (m.offer msg).2.capacity = m.capacity := by
      unfold Mailbox.offer
      split <;> rfl
    rw [hkeep]
    exact hm m rfl
  | @taken m n =>
    rintro b ⟨⟩
    exact hm m rfl
  | @closed m =>
    rintro b ⟨⟩
    exact hm m rfl

end MailChange

/-! ## The journal -/

/-- What an offer stems from. -/
inductive Origin where
  /-- A push to a user, by the number of its move. -/
  | push (move : Nat)
  /-- A job, by its worker and the number of jobs that this worker was given before it. -/
  | job (worker : WorkerRef) (turn : Nat)
  deriving DecidableEq, Repr

/-- A message that was offered to a channel. -/
structure Offer where
  /-- The number of the move that made the offer. -/
  move : Nat
  origin : Origin
  channel : ChannelRef
  msg : Msg
  delivery : Delivery
  deriving DecidableEq, Repr

/-- The messages that a channel has accepted, in the order of the offers. -/
def Offer.acceptedBy (c : ChannelRef) (offers : List Offer) : List Msg :=
  (offers.filter fun x => x.channel = c ∧ x.delivery = .accepted).map Offer.msg

/-- The clock reading, the user and the message of a push to a user. -/
def Call.userPush? : Call → Option (Nat × UserId × Msg)
  | pushUser now user msg => some (now, user, msg)
  | openChannel | join .. | finishJoin .. | leave .. | pushRoom .. | pushRoomCount ..
  | pushRoomInfo .. | take .. | drain .. | closeMailbox .. => none

/-- The messages that a writer takes out of the mailbox of a channel. -/
def takenFrom (c : ChannelRef) : Move × Answer → List Msg
  | (.call k, .taken msgs) => if k.channel? = some c then msgs else []
  | _ => []

/-- All that the writers of a channel have taken out. -/
def received (c : ChannelRef) (history : List (Move × Answer)) : List Msg :=
  history.flatMap (takenFrom c)

namespace Server

variable {s s' s₀ : Server} {m : Move} {a : Answer} {ms : List Move} {x y : Offer}
  {c : ChannelRef} {n : Nat} {done : WorkerRef → Nat}

/-- The offers of one answered move, the `n`-th one, where `done` tells how many jobs each worker
has performed before. -/
def offersOf (s : Server) (n : Nat) (done : WorkerRef → Nat) : Move × Answer → List Offer
  | (.call k, .pushed (some delivery)) =>
    (k.userPush?.bind fun (now, user, msg) => (s.lookupUser user).map fun c =>
      ⟨n, .push n, c, (s.stamp now msg).1, delivery⟩).toList
  | (.work w, _) =>
    ((s.hub.queue w).take 1).flatMap fun job =>
      (s.hub.membersOf w.bucket job.room).map fun c =>
        ⟨n, .job w (done w), c, job.msg, (s.hub.roster.push c job.msg).1⟩
  | _ => []

/-- The offers of the move of a number. -/
def offersAt (s : Server) (ms : List Move) (n : Nat) : List Offer :=
  (ms[n]?).elim [] fun m => (s.after (ms.take n)).offersOf n
    (fun w => (s.departures w (ms.take n)).length) (m, ((s.after (ms.take n)).step m).1)

/-- All offers of a run. -/
def journal (s : Server) (ms : List Move) : List Offer :=
  (List.range ms.length).flatMap (s.offersAt ms)

theorem offersAt_append (s : Server) (ms ms' : List Move) (hn : n < ms.length) :
    s.offersAt (ms ++ ms') n = s.offersAt ms n := by
  rw [offersAt, offersAt, List.getElem?_append_left hn,
    List.take_append_of_le_length (Nat.le_of_lt hn)]

theorem journal_concat (s : Server) (ms : List Move) (m : Move) :
    s.journal (ms ++ [m]) = s.journal ms ++ (s.after ms).offersOf ms.length
      (fun w => (s.departures w ms).length) (m, ((s.after ms).step m).1) := by
  have hlast : s.offersAt (ms ++ [m]) ms.length = (s.after ms).offersOf ms.length
      (fun w => (s.departures w ms).length) (m, ((s.after ms).step m).1) := by
    rw [offersAt, List.getElem?_concat_length, List.take_left, Option.elim_some]
  rw [journal, List.length_append, List.length_singleton, List.range_succ, List.flatMap_append,
    List.flatMap_singleton, hlast, journal]
  congr 1
  exact List.flatMap_congr fun n hn => s.offersAt_append ms [m] (List.mem_range.mp hn)

/-! ## One move -/

theorem acceptedBy_append (c : ChannelRef) (xs ys : List Offer) :
    Offer.acceptedBy c (xs ++ ys) = Offer.acceptedBy c xs ++ Offer.acceptedBy c ys := by
  rw [Offer.acceptedBy, List.filter_append, List.map_append]
  rfl

/-- Of the copies for the members of a room, a channel may accept its own one. -/
theorem acceptedBy_map {cs : List ChannelRef} (hnd : cs.Nodup) (f : ChannelRef → Offer)
    (hf : ∀ c, (f c).channel = c) : Offer.acceptedBy c (cs.map f) =
      if c ∈ cs ∧ (f c).delivery = .accepted then [(f c).msg] else [] := by
  induction cs with
  | nil => rfl
  | cons c' cs ih =>
    rw [List.nodup_cons] at hnd
    have hrest := ih hnd.2
    rw [Offer.acceptedBy] at hrest ⊢
    rw [List.map_cons]
    by_cases hc : c' = c
    · subst hc
      have hnone : ¬ (c' ∈ cs ∧ (f c').delivery = .accepted) := fun h => hnd.1 h.1
      rw [if_neg hnone] at hrest
      by_cases hd : (f c').delivery = .accepted
      · rw [List.filter_cons_of_pos (by simp [hf, hd]), List.map_cons, hrest]
        simp [hd]
      · rw [List.filter_cons_of_neg (by simp [hd]), hrest]
        simp [hd]
    · rw [List.filter_cons_of_neg (by simp [hf, hc]), hrest]
      simp [Ne.symm hc]

theorem mailbox_mailOf (s : Server) (c₀ : ChannelRef) (f : Mailbox → Mailbox) (c : ChannelRef) :
    ((s.withMail (Roster.mailOf c₀ f)).channel? c).map Channel.mailbox =
      if c = c₀ then ((s.channel? c).map Channel.mailbox).map f
      else (s.channel? c).map Channel.mailbox := by
  change ((s.hub.roster.mapMail _).channel? c).map _ = _
  rw [Roster.channel?_mapMail, Option.map_map]
  change (s.channel? c).map _ = _
  unfold Roster.mailOf
  split
  next =>
    rw [Option.map_map]
    rfl
  next => rfl

/-- A change of one channel besides its mail changes no mailbox. -/
theorem mailbox_eq_of_channels {c₀ : ChannelRef} {channel channel' : Channel}
    (hc : s.channel? c₀ = some channel)
    (hchannels : s'.channel? c = if c = c₀ then some channel' else s.channel? c)
    (hmail : channel'.mailbox = channel.mailbox) :
    (s'.channel? c).map Channel.mailbox = (s.channel? c).map Channel.mailbox := by
  rw [hchannels]
  split
  next he => rw [he, hc, Option.map_some, Option.map_some, hmail]
  next => rfl

/-- What a move does to the mailbox of a channel, what its answer takes out and what the journal
says about it fit together. -/
theorem Outcome.mailChange (hs : s.hub.Sound) (ho : s.Outcome m a s') (c : ChannelRef) (n : Nat)
    (done : WorkerRef → Nat) : MailChange s.options.broadcastSize
      ((s.channel? c).map Channel.mailbox) (takenFrom c (m, a))
      (Offer.acceptedBy c (s.offersOf n done (m, a))) ((s'.channel? c).map Channel.mailbox) := by
  cases ho with
  | stray | refused | leftBefore | missed => exact .keep
  | opened =>
    rw [channel?_openChannel]
    split
    next he =>
      rw [he, channel?_openChannel_fst]
      exact .opened
    next => exact .keep
  | admitted _ ha =>
    obtain ⟨link, hchannels⟩ := ha.channels hs
    exact .of_eq (mailbox_eq_of_channels ha.channel? (hchannels c) rfl)
  | leftUnjoined hc =>
    exact .of_eq (mailbox_eq_of_channels hc (channel?_beginClose hc c) rfl)
  | left hd => exact .of_eq (mailbox_eq_of_channels hd.channel? (hd.channels c) rfl)
  | @offered now user msg c' channel hu hc =>
    have hoffers : s.offersOf n done (.call (.pushUser now user msg),
        .pushed (some (channel.mailbox.offer (s.stamp now msg).1).1)) =
          [⟨n, .push n, c', (s.stamp now msg).1,
            (channel.mailbox.offer (s.stamp now msg).1).1⟩] := by
      simp only [offersOf, Call.userPush?, Option.bind_some, hu, Option.map_some,
        Option.toList_some]
    rw [mailbox_mailOf, channel?_stamp, hoffers]
    by_cases he : c = c'
    · subst he
      rw [if_pos rfl, hc, Option.map_some, Option.map_some]
      have haccepted : Offer.acceptedBy c [⟨n, .push n, c, (s.stamp now msg).1,
          (channel.mailbox.offer (s.stamp now msg).1).1⟩] =
            if (channel.mailbox.offer (s.stamp now msg).1).1 = .accepted
              then [(s.stamp now msg).1] else [] := by
        by_cases ha : (channel.mailbox.offer (s.stamp now msg).1).1 = .accepted <;>
          simp [Offer.acceptedBy, ha]
      rw [haccepted]
      exact .offered
    · have hnone : Offer.acceptedBy c [⟨n, .push n, c', (s.stamp now msg).1,
          (channel.mailbox.offer (s.stamp now msg).1).1⟩] = [] := by
        simp [Offer.acceptedBy, Ne.symm he]
      rw [if_neg he, hnone]
      exact .keep
  | queued =>
    refine .of_eq ?_
    change ((s.hub.broadcastAll _ _).roster.channel? c).map _ = _
    rw [Hub.broadcastAll_roster]
    rfl
  | @taken k c' n' channel hk hc =>
    have hkc : k.channel? = some c' := by
      rcases hk with rfl | rfl <;> rfl
    change MailChange _ _ (if k.channel? = some c then _ else _) [] _
    rw [mailbox_mailOf, hkc]
    by_cases he : c = c'
    · subst he
      rw [if_pos rfl, if_pos rfl, hc, Option.map_some, Option.map_some]
      exact .taken
    · rw [if_neg (fun h => he (Option.some.inj h).symm), if_neg he]
      exact .keep
  | @closed c' =>
    change MailChange _ _ [] [] _
    rw [mailbox_mailOf]
    split
    next =>
      cases s.channel? c with
      | none => exact .keep
      | some channel => exact .closed
    next => exact .keep
  | @worked w =>
    cases hq : s.hub.queue w with
    | nil =>
      simp only [offersOf, hq, Hub.work_of_nil hq]
      exact .keep
    | cons job rest =>
      have hperforms := performs_work hs hq
      simp only [offersOf, hq, List.take_succ_cons, List.take_zero, List.flatMap_cons,
        List.flatMap_nil, List.append_nil, hperforms.channels]
      rw [acceptedBy_map (hs.nodup_membersOf _ _) _ (fun _ => rfl)]
      by_cases hm : c ∈ s.hub.membersOf w.bucket job.room
      · obtain ⟨-, channel, hc, -⟩ := hs.mem_membersOf.mp hm
        have hc' : s.channel? c = some channel := hc
        simp only [hm, true_and, if_true, Roster.push_fst hc, hc', Option.map_some]
        exact .offered
      · simp only [hm, false_and, if_false, Option.map_id']
        exact .keep

/-! ## Whole runs -/

/-- What a writer has taken out and what still waits is what was accepted. -/
theorem accounts_after (hs : s₀.hub.Sound) (hnone : ∀ c, s₀.channel? c = none) (ms : List Move)
    (c : ChannelRef) :
    MailChange.Accounts (((s₀.after ms).channel? c).map Channel.mailbox)
      (received c (s₀.history ms)) (Offer.acceptedBy c (s₀.journal ms)) := by
  induction ms using List.reverseRecOn with
  | nil =>
    rw [after_nil, hnone]
    exact ⟨rfl, rfl⟩
  | append_singleton ms m ih =>
    have hchange := (step_outcome (sound_after hs ms) m).mailChange (sound_after hs ms) c ms.length
      fun w => (s₀.departures w ms).length
    rw [after_concat, history_concat, journal_concat, acceptedBy_append, received,
      List.flatMap_append, List.flatMap_singleton]
    exact hchange.accounts ih

/-- All mailboxes of a server are of one size. -/
theorem capacity_after (hs : s₀.hub.Sound) (hnone : ∀ c, s₀.channel? c = none) (ms : List Move)
    (c : ChannelRef) : ∀ b ∈ ((s₀.after ms).channel? c).map Channel.mailbox,
      b.capacity = max s₀.options.broadcastSize 1 := by
  induction ms using List.reverseRecOn with
  | nil =>
    rw [after_nil, hnone]
    nofun
  | append_singleton ms m ih =>
    have hchange := (step_outcome (sound_after hs ms) m).mailChange (sound_after hs ms) c ms.length
      fun w => (s₀.departures w ms).length
    rw [(settings_after hs ms).2] at hchange
    rw [after_concat]
    exact hchange.capacity ih

/-! ## Origins -/

/-- What an offer of a run stems from, in terms of the states that the run goes through. -/
inductive Stems (s₀ : Server) (ms : List Move) : Offer → Prop
  /-- A push to a user, for whom the channel was registered at that moment. -/
  | push {n now : Nat} {user : UserId} {msg : Msg} {c : ChannelRef} {delivery : Delivery} :
    ms[n]? = some (.call (.pushUser now user msg)) →
    (s₀.after (ms.take n)).lookupUser user = some c →
    ((s₀.after (ms.take n)).step (.call (.pushUser now user msg))).1 = .pushed (some delivery) →
    Stems s₀ ms ⟨n, .push n, c, ((s₀.after (ms.take n)).stamp now msg).1, delivery⟩
  /-- A job that a worker was given, of whose room the channel was a member when it was
  performed. -/
  | job {n : Nat} {w : WorkerRef} {turn : Nat} {room : RoomId} {msg : Msg} {c : ChannelRef} :
    ms[n]? = some (.work w) → turn = (s₀.departures w (ms.take n)).length →
    (s₀.arrivals w (ms.take n))[turn]? = some ⟨room, msg⟩ →
    c ∈ (s₀.after (ms.take n)).hub.membersOf w.bucket room →
    Stems s₀ ms
      ⟨n, .job w turn, c, msg, ((s₀.after (ms.take n)).hub.roster.push c msg).1⟩

theorem departures_append (s : Server) (w : WorkerRef) (ms ms' : List Move) :
    s.departures w (ms ++ ms') = s.departures w ms ++ (s.after ms).departures w ms' := by
  induction ms generalizing s with
  | nil => rfl
  | cons m ms ih =>
    rw [List.cons_append, departures, departures, ih, List.append_assoc]
    rfl

theorem mem_offersOf_call {k : Call} :
    x ∈ s.offersOf n done (.call k, a) ↔ ∃ now user msg c delivery, k = .pushUser now user msg ∧
      a = .pushed (some delivery) ∧ s.lookupUser user = some c ∧
      x = ⟨n, .push n, c, (s.stamp now msg).1, delivery⟩ := by
  constructor
  · intro hx
    cases a with
    | pushed d =>
      cases d with
      | none => cases hx
      | some delivery =>
        rw [offersOf, Option.mem_toList, Option.bind_eq_some_iff] at hx
        obtain ⟨⟨now, user, msg⟩, hk, hx⟩ := hx
        obtain ⟨c, hu, rfl⟩ := Option.map_eq_some_iff.mp hx
        have hpush : k = .pushUser now user msg := by
          cases k <;> cases hk
          rfl
        exact ⟨now, user, msg, c, delivery, hpush, rfl, hu, rfl⟩
    | _ => cases hx
  · rintro ⟨now, user, msg, c, delivery, rfl, rfl, hu, rfl⟩
    simp only [offersOf, Call.userPush?, Option.bind_some, hu, Option.map_some,
      Option.toList_some, List.mem_singleton]

theorem mem_offersOf_work {w : WorkerRef} :
    x ∈ s.offersOf n done (.work w, a) ↔ ∃ job rest c, s.hub.queue w = job :: rest ∧
      c ∈ s.hub.membersOf w.bucket job.room ∧
      x = ⟨n, .job w (done w), c, job.msg, (s.hub.roster.push c job.msg).1⟩ := by
  cases hq : s.hub.queue w with
  | nil => simp [offersOf, hq]
  | cons job rest =>
    simp only [offersOf, hq, List.take_succ_cons, List.take_zero, List.flatMap_cons,
      List.flatMap_nil, List.append_nil, List.mem_map, List.cons.injEq]
    constructor
    · rintro ⟨c, hc, rfl⟩
      exact ⟨job, rest, c, ⟨rfl, rfl⟩, hc, rfl⟩
    · rintro ⟨_, _, c, ⟨rfl, rfl⟩, hc, rfl⟩
      exact ⟨c, hc, rfl⟩

/-- A move offers at most one message to a channel. -/
theorem pairwise_channel_offersOf (hs : s.hub.Sound) (n : Nat) (done : WorkerRef → Nat)
    (x : Move × Answer) : (s.offersOf n done x).Pairwise fun x y => x.channel ≠ y.channel := by
  obtain ⟨m, a⟩ := x
  cases m with
  | call k =>
    cases a with
    | pushed d =>
      cases d with
      | none => exact List.Pairwise.nil
      | some delivery =>
        rw [offersOf]
        cases k.userPush?.bind _ with
        | none => exact List.Pairwise.nil
        | some x => exact List.pairwise_singleton _ _
    | _ => exact List.Pairwise.nil
  | work w =>
    rw [offersOf]
    cases s.hub.queue w with
    | nil => exact List.Pairwise.nil
    | cons job rest =>
      simp only [List.take_succ_cons, List.take_zero, List.flatMap_cons, List.flatMap_nil,
        List.append_nil, List.pairwise_map]
      exact hs.nodup_membersOf _ _

/-- The job that a worker performs next is the oldest one that it has been given and has not
performed. -/
theorem getElem?_arrivals (hs : s₀.hub.Sound) (hst : s₀.hub.Staffed)
    (hempty : ∀ w, s₀.hub.queue w = []) (ms : List Move) (w : WorkerRef) :
    (s₀.arrivals w ms)[(s₀.departures w ms).length]? = ((s₀.after ms).hub.queue w).head? := by
  have hlaw := queue_after hs hst ms w
  rw [hempty, List.nil_append] at hlaw
  rw [hlaw, List.getElem?_append_right (Nat.le_refl _), Nat.sub_self, List.head?_eq_getElem?]

theorem stems_of_mem_offersAt (hs : s₀.hub.Sound) (hst : s₀.hub.Staffed)
    (hempty : ∀ w, s₀.hub.queue w = []) (hx : x ∈ s₀.offersAt ms n) :
    x.move = n ∧ s₀.Stems ms x := by
  rw [offersAt] at hx
  cases hm : ms[n]? with
  | none =>
    rw [hm] at hx
    cases hx
  | some m =>
    rw [hm, Option.elim_some] at hx
    cases m with
    | call k =>
      obtain ⟨now, user, msg, c, delivery, rfl, ha, hu, rfl⟩ := mem_offersOf_call.mp hx
      exact ⟨rfl, .push hm hu ha⟩
    | work w =>
      obtain ⟨job, rest, c, hq, hc, rfl⟩ := mem_offersOf_work.mp hx
      refine ⟨rfl, .job hm rfl ?_ hc⟩
      rw [getElem?_arrivals hs hst hempty, hq]
      rfl

/-- The journal lists the offers that stem from pushes and jobs, and no others. -/
theorem mem_journal_iff (hs : s₀.hub.Sound) (hst : s₀.hub.Staffed)
    (hempty : ∀ w, s₀.hub.queue w = []) (ms : List Move) (x : Offer) :
    x ∈ s₀.journal ms ↔ s₀.Stems ms x := by
  have hlt : ∀ {n : Nat} {m : Move}, ms[n]? = some m → n ∈ List.range ms.length := fun hm =>
    List.mem_range.mpr (List.getElem?_eq_some_iff.mp hm).1
  rw [journal, List.mem_flatMap]
  constructor
  · rintro ⟨n, -, hx⟩
    exact (stems_of_mem_offersAt hs hst hempty hx).2
  · intro hx
    cases hx with
    | @push n now user msg c delivery hm hu ha =>
      refine ⟨n, hlt hm, ?_⟩
      rw [offersAt, hm, Option.elim_some, mem_offersOf_call]
      exact ⟨now, user, msg, c, delivery, rfl, ha, hu, rfl⟩
    | @job n w turn room msg c hm hturn harrival hc =>
      subst hturn
      rw [getElem?_arrivals hs hst hempty, List.head?_eq_some_iff] at harrival
      obtain ⟨rest, hq⟩ := harrival
      refine ⟨n, hlt hm, ?_⟩
      rw [offersAt, hm, Option.elim_some, mem_offersOf_work]
      exact ⟨⟨room, msg⟩, rest, c, hq, hc, rfl⟩

/-- No worker performs a job twice. -/
theorem length_departures_lt {w : WorkerRef} {i j : Nat} (hm : ms[i]? = some (.work w))
    (hq : (s₀.after (ms.take i)).hub.queue w ≠ []) (hij : i < j) :
    (s₀.departures w (ms.take i)).length < (s₀.departures w (ms.take j)).length := by
  have hsplit : ms.take j = ms.take i ++ .work w :: (ms.drop (i + 1)).take (j - (i + 1)) := by
    have hj : j = i + 1 + (j - (i + 1)) := by omega
    conv_lhs => rw [hj, List.take_add, List.take_add_one, hm]
    rw [Option.toList_some, List.append_assoc, List.singleton_append]
  obtain ⟨job, rest, hcons⟩ := List.exists_cons_of_ne_nil hq
  rw [hsplit, departures_append, departures, departure, if_pos rfl, hcons]
  simp only [List.take_succ_cons, List.length_append, List.length_cons]
  omega

/-- Offers of different moves have different origins. -/
theorem Stems.origin_ne (hs : s₀.hub.Sound) (hst : s₀.hub.Staffed)
    (hempty : ∀ w, s₀.hub.queue w = []) (hx : s₀.Stems ms x) (hy : s₀.Stems ms y)
    (hxy : x.move < y.move) : x.origin ≠ y.origin := by
  cases hx with
  | push =>
    cases hy with
    | push =>
      intro h
      exact absurd (Origin.push.inj h) (Nat.ne_of_lt hxy)
    | job => nofun
  | @job n w _ _ _ _ hm hturn harrival =>
    cases hy with
    | push => nofun
    | @job n' _ _ _ _ _ _ hturn' =>
      intro h
      obtain ⟨rfl, rfl⟩ := Origin.job.inj h
      rw [hturn, getElem?_arrivals hs hst hempty, List.head?_eq_some_iff] at harrival
      obtain ⟨rest, hq⟩ := harrival
      have hne : (s₀.after (ms.take n)).hub.queue w ≠ [] := by
        rw [hq]
        exact List.cons_ne_nil _ _
      have hlt : (s₀.departures w (ms.take n)).length < (s₀.departures w (ms.take n')).length :=
        length_departures_lt hm hne hxy
      omega

/-- Two offers to one channel are made by different moves, in the order of the journal, and stem
from different pushes or jobs. -/
theorem pairwise_journal (hs : s₀.hub.Sound) (hst : s₀.hub.Staffed)
    (hempty : ∀ w, s₀.hub.queue w = []) (ms : List Move) :
    (s₀.journal ms).Pairwise fun x y =>
      x.channel = y.channel → x.move < y.move ∧ x.origin ≠ y.origin := by
  rw [journal, List.pairwise_flatMap]
  constructor
  · intro n _
    rw [offersAt]
    cases ms[n]? with
    | none => exact List.Pairwise.nil
    | some m =>
      refine (pairwise_channel_offersOf (sound_after hs _) _ _ _).imp fun hne heq => ?_
      exact absurd heq hne
  · refine List.pairwise_lt_range.imp ?_
    intro i j hij x hx y hy _
    obtain ⟨hxi, hstemsx⟩ := stems_of_mem_offersAt hs hst hempty hx
    obtain ⟨hyj, hstemsy⟩ := stems_of_mem_offersAt hs hst hempty hy
    have hlt : x.move < y.move := by omega
    exact ⟨hlt, hstemsx.origin_ne hs hst hempty hstemsy hlt⟩

/-! ## Acceptance and refusal -/

/-- The mailbox decides about an offer by itself: it accepts the message if it is open and not full,
and stays as it is otherwise. -/
def Decided (s₀ : Server) (ms : List Move) (x : Offer) : Prop :=
  ∃ channel, (s₀.after (ms.take x.move)).channel? x.channel = some channel ∧
    (x.delivery = .accepted ↔ channel.mailbox.isOpen = true ∧
      channel.mailbox.waiting.length < max s₀.options.broadcastSize 1) ∧
    (x.delivery = .dropped →
      (s₀.after (ms.take (x.move + 1))).channel? x.channel = some channel)

theorem offer_fst_eq_accepted_after (hs : s₀.hub.Sound) (hnone : ∀ c, s₀.channel? c = none)
    {channel : Channel} (hc : (s₀.after ms).channel? c = some channel) (msg : Msg) :
    (channel.mailbox.offer msg).1 = .accepted ↔ channel.mailbox.isOpen = true ∧
      channel.mailbox.waiting.length < max s₀.options.broadcastSize 1 := by
  have hmem : channel.mailbox ∈ ((s₀.after ms).channel? c).map Channel.mailbox := by
    rw [hc]
    rfl
  rw [Mailbox.offer_fst_eq_accepted, capacity_after hs hnone ms c channel.mailbox hmem]

theorem step_pushUser (s : Server) (now : Nat) (user : UserId) (msg : Msg) :
    s.step (.call (.pushUser now user msg)) =
      (.pushed (s.pushUser now user msg).1, (s.pushUser now user msg).2) := rfl

/-- A push that the mailbox refuses changes nothing in the hub. -/
theorem pushUser_of_refused {channel : Channel} (hc : s.channel? c = some channel)
    {user : UserId} (hu : s.lookupUser user = some c) (now : Nat) (msg : Msg)
    (hrefused : (channel.mailbox.offer (s.stamp now msg).1).1 = .dropped) :
    (s.pushUser now user msg).2.hub = s.hub := by
  have hkeep := Mailbox.offer_snd_of_dropped hrefused
  have hroster : s.hub.roster.mapMail
      (Roster.mailOf c fun m => (m.offer (s.stamp now msg).1).2) = s.hub.roster := by
    refine Roster.ext_channels (fun c' => ?_) rfl
    rw [Roster.channel?_mapMail]
    unfold Roster.mailOf
    split
    next he =>
      change s.hub.roster.channel? c = some channel at hc
      rw [he, hc, Option.map_some]
      exact congrArg (fun m => some { channel with mailbox := m }) hkeep
    next => exact Option.map_id' ..
  rw [pushUser_eq hc hu, withMail, stamp_hub, hroster]

theorem decided_of_stems (hs : s₀.hub.Sound) (hst : s₀.hub.Staffed)
    (hempty : ∀ w, s₀.hub.queue w = []) (hnone : ∀ c, s₀.channel? c = none)
    (hx : s₀.Stems ms x) : s₀.Decided ms x := by
  have hnext : ∀ {n : Nat} {m : Move}, ms[n]? = some m →
      s₀.after (ms.take (n + 1)) = ((s₀.after (ms.take n)).step m).2 := by
    intro n m hm
    rw [List.take_add_one, hm, Option.toList_some, after_concat]
  cases hx with
  | @push n now user msg c delivery hm hu ha =>
    have hsn := sound_after hs (ms.take n)
    obtain ⟨channel, hc, -⟩ := exists_channel_of_lookupUser hsn hu
    have hpush := pushUser_eq hc hu now msg
    have hdelivery : (channel.mailbox.offer ((s₀.after (ms.take n)).stamp now msg).1).1 =
        delivery := by
      rw [step_pushUser, hpush] at ha
      exact Option.some.inj (Answer.pushed.inj ha)
    refine ⟨channel, hc, ?_, ?_⟩
    · rw [← offer_fst_eq_accepted_after hs hnone hc, hdelivery]
    · intro hd
      have hrefused := pushUser_of_refused hc hu now msg (hdelivery.trans hd)
      rw [hnext hm, step_pushUser, channel?, hrefused]
      exact hc
  | @job n w turn room msg c hm hturn harrival hc =>
    have hsn := sound_after hs (ms.take n)
    obtain ⟨-, channel, hchannel, -⟩ := hsn.mem_membersOf.mp hc
    have hdelivery := Roster.push_fst hchannel msg
    refine ⟨channel, hchannel, ?_, ?_⟩
    · rw [hdelivery]
      exact offer_fst_eq_accepted_after hs hnone hchannel msg
    · intro hd
      subst hturn
      rw [getElem?_arrivals hs hst hempty, List.head?_eq_some_iff] at harrival
      obtain ⟨rest, hq⟩ := harrival
      have hperforms := (performs_work hsn hq).channels c
      have hdropped : (channel.mailbox.offer msg).1 = .dropped := hdelivery.symm.trans hd
      have hrefused : (channel.push msg).2 = channel :=
        congrArg (fun m => { channel with mailbox := m }) (Mailbox.offer_snd_of_dropped hdropped)
      rw [hnext hm]
      refine hperforms.trans ?_
      change (s₀.after (ms.take n)).channel? c = some channel at hchannel
      rw [hchannel, Option.map_some, if_pos hc, hrefused]

/-- While a mailbox is open, nothing that it has accepted is lost. -/
theorem received_append_waiting (hs : s₀.hub.Sound) (hnone : ∀ c, s₀.channel? c = none)
    {channel : Channel} (hc : (s₀.after ms).channel? c = some channel)
    (hopen : channel.mailbox.isOpen = true) :
    received c (s₀.history ms) ++ channel.mailbox.waiting =
      Offer.acceptedBy c (s₀.journal ms) := by
  have haccounts := accounts_after hs hnone ms c
  rw [hc, Option.map_some] at haccounts
  obtain ⟨lost, hlost, hnil⟩ := haccounts
  rw [← hlost, hnil hopen, List.append_nil]

/-- A push to a user is answered as the mailbox decides, and if the mailbox refuses the message, no
mailbox changes. -/
theorem pushUser_decided (hs : s₀.hub.Sound) (hnone : ∀ c, s₀.channel? c = none) {user : UserId}
    (hu : (s₀.after ms).lookupUser user = some c) (now : Nat) (msg : Msg) :
    let s := s₀.after ms
    ∃ channel, s.channel? c = some channel ∧
      if channel.mailbox.isOpen = true ∧
        channel.mailbox.waiting.length < max s₀.options.broadcastSize 1
      then (s.step (.call (.pushUser now user msg))).1 = .pushed (some .accepted)
      else (s.step (.call (.pushUser now user msg))).1 = .pushed (some .dropped) ∧
        (s.step (.call (.pushUser now user msg))).2.hub = s.hub := by
  intro s
  obtain ⟨channel, hc, -⟩ := exists_channel_of_lookupUser (sound_after hs ms) hu
  have haccepted := offer_fst_eq_accepted_after hs hnone hc (s.stamp now msg).1
  have hpush : (s.pushUser now user msg).1 = some (channel.mailbox.offer (s.stamp now msg).1).1 :=
    congrArg Prod.fst (pushUser_eq hc hu now msg)
  refine ⟨channel, hc, ?_⟩
  rw [step_pushUser, hpush]
  split
  next h => rw [haccepted.mpr h]
  next h =>
    cases hd : (channel.mailbox.offer (s.stamp now msg).1).1 with
    | accepted => exact absurd (haccepted.mp hd) h
    | dropped => exact ⟨rfl, pushUser_of_refused hc hu now msg hd⟩

/-- The mailbox of a channel holds, after what was taken out of it, the messages that were offered
to the channel and accepted, in the order of the offers and once each. All offers stem from pushes
to users for whom the channel was registered, or from jobs of rooms that it was a member of, and no
push and no job leads to two of them. What is refused, by a mailbox or for want of a registered
channel, changes no mailbox. -/
theorem mailbox_provenance (id : String) (options : ConnectionOptions) (config : BucketConfig)
    (generator : SequenceId.Generator) (ms : List Move) :
    let s₀ := new id options config generator
    let s := s₀.after ms
    (∀ c channel, s.channel? c = some channel → channel.mailbox.isOpen = true →
      received c (s₀.history ms) ++ channel.mailbox.waiting =
        Offer.acceptedBy c (s₀.journal ms)) ∧
    (∀ x, x ∈ s₀.journal ms ↔ s₀.Stems ms x) ∧
    ((s₀.journal ms).Pairwise fun x y =>
      x.channel = y.channel → x.move < y.move ∧ x.origin ≠ y.origin) ∧
    (∀ x ∈ s₀.journal ms, s₀.Decided ms x) ∧
    ∀ now user msg, match s.lookupUser user with
      | none => s.step (.call (.pushUser now user msg)) = (.pushed none, s)
      | some c => ∃ channel, s.channel? c = some channel ∧
        if channel.mailbox.isOpen = true ∧
          channel.mailbox.waiting.length < max options.broadcastSize 1
        then (s.step (.call (.pushUser now user msg))).1 = .pushed (some .accepted)
        else (s.step (.call (.pushUser now user msg))).1 = .pushed (some .dropped) ∧
          (s.step (.call (.pushUser now user msg))).2.hub = s.hub := by
  intro s₀ s
  have hs : s₀.hub.Sound := Hub.sound_new config
  have hst : s₀.hub.Staffed := Hub.staffed_new config
  have hempty : ∀ w, s₀.hub.queue w = [] := Hub.queue_new config
  have hnone : ∀ c, s₀.channel? c = none := fun _ => rfl
  have hjournal := mem_journal_iff hs hst hempty ms
  refine ⟨?_, hjournal, pairwise_journal hs hst hempty ms, ?_, ?_⟩
  · intro c channel hc hopen
    exact received_append_waiting hs hnone hc hopen
  · intro x hx
    have hstems : s₀.Stems ms x := (hjournal x).mp hx
    exact decided_of_stems hs hst hempty hnone hstems
  · intro now user msg
    cases hu : s.lookupUser user with
    | none =>
      have hpush := pushUser_of_none hu now msg
      simp only [step_pushUser, hpush]
    | some c => exact pushUser_decided hs hnone hu now msg

end Server

end ChatRelay
