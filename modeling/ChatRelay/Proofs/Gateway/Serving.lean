import ChatRelay.Proofs.Config.Settings
import ChatRelay.Proofs.Gateway.Run
import ChatRelay.Service.Run
import Mathlib.Data.List.Induction

/-!
# A loaded configuration can be served

The rules of a configuration stand far from what they are for: the issuer of ids takes a worker of
ten bits, every user needs a bucket, and a client that answers pings must not be taken for a silent
one. What a loaded configuration guarantees is compared here with what a server and the writers of
its connections need. Two needs have no rule: a path that cannot be a route ends the instance, and
without a time between two heartbeats no writer starts (`loaded_yet_unserved`). Where both are met,
a server is put together, its path is served, every connection that is opened is open, and each that
the gateway ends had a cause (`exists_serves`).

A cause is an event at the connection itself (`Gateway.Cause`). For silence it is told by the events
before: the client sent nothing for as long as it may be silent. Clients that answer pings are never
ended so, because of the rule that heartbeats come more often than that.

Libraries refuse more than the rules say: a queue for no message or for too many, room in advance
for too many entries, a timer that never beats or whose first beat is beyond the clock (`Limits`).
What a server asks them for is told by `Blueprint.demands` and `ConnectionOptions.demands`. They
take all of it as far as the sizes of the configuration go (`AppConfig.FitsIn`), which is one more
thing that no rule checks.
-/

namespace ChatRelay

/-! ## What a loaded configuration guarantees -/

namespace Config.AppConfig

/-- The rules that a configuration is checked for. -/
structure Sound (c : AppConfig) : Prop where
  bucketCount : c.bucketCount ≠ some 0
  routineAmount : c.routineAmount ≠ 0
  broadcastSize : c.connection.broadcastSize ≠ 0
  pingPeriod : c.connection.pingPeriod < c.connection.pongWait
  workerId : c.workerId ≤ SequenceId.maxWorker

theorem validate_eq_ok_iff {c : AppConfig} : c.validate = .ok () ↔ c.Sound := by
  unfold validate
  constructor
  · intro h
    split_ifs at h with hb hr hs hp hw
    exact ⟨hb, hr, hs, Nat.lt_of_not_le hp, Nat.le_of_not_lt hw⟩
  · intro h
    rw [if_neg h.bucketCount, if_neg h.routineAmount, if_neg h.broadcastSize,
      if_neg (Nat.not_le_of_lt h.pingPeriod), if_neg (Nat.not_lt_of_le h.workerId)]

theorem load_eq_ok_iff {vars : Variables} {c : AppConfig} :
    load vars = .ok c ↔ read vars = .ok c ∧ c.Sound := by
  rw [← validate_eq_ok_iff]
  unfold load
  cases read vars with
  | error e => simp [bind, Except.bind]
  | ok d =>
    cases hv : d.validate with
    | error e =>
      simp only [bind, Except.bind, hv, Except.ok.injEq, reduceCtorEq, false_iff, not_and]
      rintro rfl
      simp [hv]
    | ok u =>
      simp only [bind, Except.bind, hv, pure, Except.pure, Except.ok.injEq]
      exact ⟨fun h => ⟨h, h ▸ hv⟩, fun h => h.1⟩

end Config.AppConfig

namespace Transport

/-! ## What ends the reading of a WebSocket connection -/

theorem joinBy_ended {s : Server} {tier : BusinessTier} {c : ChannelRef} {content : Frame.Bytes}
    {e : WsEnd} (h : (joinBy s tier c content).ended = some e) :
    ∃ error, e = .joinFailed error := by
  unfold joinBy at h
  split at h
  · cases h
    exact ⟨_, rfl⟩
  · split at h
    · cases h
      exact ⟨_, rfl⟩
    · cases h

theorem takeInput_message_ended {s : Server} {tier : BusinessTier} {c : ChannelRef}
    {hasAsked : Bool} {m : WsMessage}
    (h : (takeInput s tier c hasAsked (.message m)).1.ended.isSome) :
    m = .close ∨ hasAsked = false ∧ ∃ content error,
      m.content? = some content ∧ (joinBy s tier c content).ended = some (.joinFailed error) := by
  unfold takeInput at h
  split at h
  · next hm =>
    cases m with
    | close => exact .inl rfl
    | text | binary | ping | pong => cases hm
  · dsimp only at h
    split at h
    · next content hm =>
      split at h
      · cases h
      · next ha =>
        obtain ⟨e, he⟩ := Option.isSome_iff_exists.1 h
        obtain ⟨error, rfl⟩ := joinBy_ended he
        exact .inr ⟨by simpa using ha, content, error, hm, he⟩
    · cases h

end Transport

namespace Gateway

variable {g₀ g : Gateway} {past : List Event} {e : Event} {c x : Client}

/-! ## Causes -/

/-- Why the gateway `g₀` may end a connection in an event after others. -/
inductive Cause (g₀ : Gateway) (past : List Event) (c : Client) : Event → Prop where
  /-- The client went away. -/
  | hungUp (tier : BusinessTier) : Cause g₀ past c (.hangUp tier c.name)
  /-- The client closed the connection. -/
  | closed (tier : BusinessTier) : Cause g₀ past c (.message tier c.name .close)
  /-- A message was too long for the transport. -/
  | tooLong (tier : BusinessTier) {m : Transport.WsMessage}
      (h : (g₀.after past).server.options.maxMessageSize < contentSize m) :
      Cause g₀ past c (.message tier c.name m)
  /-- The request to join, which is the first message, could not be read, or the join failed. -/
  | joinRejected {tier : BusinessTier} {m : Transport.WsMessage} {content : Frame.Bytes}
      {error : RequestError} {answersPings : Bool} {heardAt : Nat}
      (hw : c.wire = .socket false answersPings heardAt) (hm : m.content? = some content)
      (h : (Transport.joinBy (g₀.after past).server tier c.channel content).ended =
        some (.joinFailed error)) :
      Cause g₀ past c (.message tier c.name m)
  /-- A frame, the message in it, or the join that it asked for was rejected. -/
  | frameRejected {tier : BusinessTier} {buffer chunk : Frame.Bytes} {error : RequestError}
      (hw : c.wire = .raw buffer)
      (h : ((g₀.after past).reading tier c buffer chunk).1.ended = some error) :
      Cause g₀ past c (.bytes tier c.name chunk)
  /-- The client, which does not answer pings, sent nothing for as long as it may be silent. -/
  | silent (tier : BusinessTier) {earlier quiet : List Event} {hasAsked : Bool} {heardAt : Nat}
      (hw : c.wire = .socket hasAsked false heardAt) (hpast : past = earlier ++ quiet)
      (hquiet : ∀ tier m, .message tier c.name m ∉ quiet)
      (h : g₀.server.options.pongWait ≤ seconds quiet + 1) :
      Cause g₀ past c (.second tier)

/-- The connection was ended by an event that is a cause. -/
def HadCause (g₀ : Gateway) (events : List Event) (x : Client) : Prop :=
  ∃ before e later c, events = before ++ e :: later ∧ c ∈ (g₀.after before).clients ∧
    c.name = x.name ∧ c.channel = x.channel ∧ c.isEnded = false ∧ Cause g₀ before c e

theorem HadCause.concat (h : g₀.HadCause past c) (hx : c.Becomes x) (e : Event) :
    g₀.HadCause (past ++ [e]) x := by
  obtain ⟨before, e', later, d, rfl, hd, hname, hchannel, hopen, hcause⟩ := h
  exact ⟨before, e', later ++ [e], d, List.append_assoc .., hd, hname.trans hx.name.symm,
    hchannel.trans hx.channel.symm, hopen, hcause⟩

/-! ## Hearing from a client -/

theorem seconds_append (before after : List Event) :
    seconds (before ++ after) = seconds before + seconds after :=
  List.countP_append

/-- What becomes of a client in the second that ends at `now`. -/
inductive Second (o : ConnectionOptions) (now : Nat) (c : Client) : Client → Prop
  | idle (h : ∀ {hasAsked heardAt}, c.wire = .socket hasAsked true heardAt → c.isEnded = false →
      Transport.isHeartbeatDue o.pingPeriod c.acceptedAt now = false) : Second o now c c
  | answered {hasAsked : Bool} {heardAt : Nat} (hw : c.wire = .socket hasAsked true heardAt) :
      Second o now c { c with wire := .socket hasAsked true now }
  | silent {hasAsked answersPings : Bool} {heardAt : Nat}
      (hw : c.wire = .socket hasAsked answersPings heardAt)
      (hp : answersPings = true →
        Transport.isHeartbeatDue o.pingPeriod c.acceptedAt now = false)
      (h : heardAt + o.pongWait ≤ now) :
      Second o now c { c with wire := .socket hasAsked answersPings now, isEnded := true }

theorem second_afterSecond (o : ConnectionOptions) (now : Nat) (c : Client) :
    Second o now c (afterSecond o now c) := by
  unfold afterSecond
  split
  · next he => exact .idle fun _ ho => by simp [he] at ho
  · split
    · next hw => exact .idle fun hw' => by simp [hw] at hw'
    · next hasAsked answersPings heardAt hw =>
      split_ifs with hd hs
      · obtain ⟨-, rfl⟩ := hd
        exact .answered hw
      · exact .silent hw (fun ha => by simpa [ha] using hd) hs
      · refine .idle fun hw' _ => ?_
        rw [hw] at hw'
        cases hw'
        simpa using hd

theorem second_next (g : Gateway) (tier : BusinessTier) (c : Client) :
    Second g.server.options (g.now + 1) c (g.next (.second tier) c) :=
  second_afterSecond ..

/-- After an event a WebSocket client was either heard just now, or it sent nothing. -/
theorem heard_next {hasAsked answersPings : Bool} {heardAt : Nat}
    (h : (g.next e c).wire = .socket hasAsked answersPings heardAt) :
    heardAt = g.now + seconds [e] ∨
      (∃ hasAsked', c.wire = .socket hasAsked' answersPings heardAt) ∧
        ∀ tier m, e ≠ .message tier c.name m := by
  -- An input from the client itself is heard at once.
  have hinput : ∀ tier input, (g.afterInput tier input c).wire =
      .socket hasAsked answersPings heardAt → heardAt = g.now := fun tier input hw => by
    unfold afterInput at hw
    split at hw
    · next hr => simp [hr] at hw
    · cases hw
      rfl
  cases e with
  | openRaw | openSocket | push | shutdown => exact .inr ⟨⟨_, h⟩, nofun⟩
  | bytes tier name chunk =>
    refine .inr ⟨⟨hasAsked, ?_⟩, nofun⟩
    unfold next afterBytes at h
    dsimp only at h
    split_ifs at h
    · cases hw : c.wire with
      | raw => simp [hw] at h
      | socket => simpa [hw] using h
    · exact h
  | message tier name m =>
    unfold next at h
    dsimp only at h
    split_ifs at h with hn
    · exact .inl (hinput _ _ h)
    · exact .inr ⟨⟨_, h⟩, fun _ _ he => by cases he; exact hn rfl⟩
  | hangUp tier name =>
    unfold next afterHangUp at h
    dsimp only at h
    split_ifs at h
    · cases hw : c.wire with
      | raw => simp [hw] at h
      | socket => exact .inl (hinput tier .failure (by simpa [hw] using h))
    · exact .inr ⟨⟨_, h⟩, nofun⟩
  | second tier =>
    have hs := g.second_next tier c
    generalize g.next (.second tier) c = x at h hs
    cases hs with
    | idle => exact .inr ⟨⟨_, h⟩, nofun⟩
    | answered | silent =>
      cases h
      exact .inl rfl

/-- A client that was heard at the last heartbeat was so a second later, if no heartbeat is due. -/
theorem heard_at_heartbeat {period acceptedAt heardAt now : Nat} (hp : Transport.isPeriod period)
    (ha : acceptedAt ≤ now) (hheard : now ≤ heardAt + (now - acceptedAt) % period)
    (hd : Transport.isHeartbeatDue period acceptedAt (now + 1) = false) :
    now + 1 ≤ heardAt + (now + 1 - acceptedAt) % period := by
  have hpos : 0 < period := Nat.pos_of_ne_zero (of_decide_eq_true hp)
  have hne : (now - acceptedAt + 1) % period ≠ 0 := by
    simpa [Transport.isHeartbeatDue, Nat.lt_succ_of_le ha, Nat.sub_add_comm ha] using hd
  have hlt : (now - acceptedAt) % period + 1 < period := by
    refine Nat.lt_of_le_of_ne (Nat.mod_lt _ hpos) fun he => hne ?_
    rw [← Nat.mod_add_mod, he, Nat.mod_self]
  rw [Nat.sub_add_comm ha, ← Nat.mod_add_mod, Nat.mod_eq_of_lt hlt]
  exact Nat.succ_le_succ hheard

/-- What is known of a connection after events: it had a cause if it ended; since a WebSocket client
was heard last, it sent nothing; and if it answers pings, it was heard at the last heartbeat. -/
structure Traced (g₀ : Gateway) (past : List Event) (c : Client) : Prop where
  cause : c.isEnded = true → g₀.HadCause past c
  acceptedAt : c.acceptedAt ≤ (g₀.after past).now
  quiet : ∀ {hasAsked answersPings heardAt}, c.wire = .socket hasAsked answersPings heardAt →
    ∃ earlier quiet, past = earlier ++ quiet ∧ (∀ tier m, .message tier c.name m ∉ quiet) ∧
      heardAt + seconds quiet = (g₀.after past).now
  answered : ∀ {hasAsked heardAt}, c.wire = .socket hasAsked true heardAt → c.isEnded = false →
    (g₀.after past).now ≤
      heardAt + ((g₀.after past).now - c.acceptedAt) % g₀.server.options.pingPeriod

/-- What is known of the gateway after events. -/
structure Known (g₀ : Gateway) (past : List Event) : Prop where
  options : (g₀.after past).server.options = g₀.server.options
  distinct : Client.Distinct (g₀.after past).clients
  traced : ∀ c ∈ (g₀.after past).clients, g₀.Traced past c

section

variable (hp : Transport.isPeriod g₀.server.options.pingPeriod)
  (hw : g₀.server.options.pingPeriod < g₀.server.options.pongWait)

include hp hw in
/-- What ends a client in a second is silence, and not of one that answers pings. -/
theorem Traced.silent (ht : g₀.Traced past c) (hopen : c.isEnded = false)
    {hasAsked answersPings : Bool} {heardAt : Nat}
    (hr : c.wire = .socket hasAsked answersPings heardAt)
    (hd : answersPings = true → Transport.isHeartbeatDue g₀.server.options.pingPeriod c.acceptedAt
      ((g₀.after past).now + 1) = false)
    (hlate : heardAt + g₀.server.options.pongWait ≤ (g₀.after past).now + 1)
    (tier : BusinessTier) : Cause g₀ past c (.second tier) := by
  obtain ⟨earlier, quiet, hpast, hquiet, hheard⟩ := ht.quiet hr
  cases answersPings with
  | false => exact .silent tier hr hpast hquiet (by omega)
  | true =>
    -- Its last answer is younger than a period, which is shorter than it may be silent.
    have hsince := heard_at_heartbeat hp ht.acceptedAt (ht.answered hr hopen) (hd rfl)
    have hlt := Nat.mod_lt ((g₀.after past).now + 1 - c.acceptedAt)
      (Nat.pos_of_ne_zero (of_decide_eq_true hp))
    omega

include hp hw in
/-- An event that ends a connection is a cause. -/
theorem cause_of_next (hk : g₀.Known past) (ht : g₀.Traced past c) (hopen : c.isEnded = false)
    (hx : ((g₀.after past).next e c).isEnded = true) : Cause g₀ past c e := by
  cases e with
  | openRaw | openSocket | push | shutdown =>
    unfold next at hx
    simp [hopen] at hx
  | bytes tier name chunk =>
    unfold next afterBytes at hx
    dsimp only at hx
    split_ifs at hx with hn
    · subst hn
      cases hr : c.wire with
      | socket => simp [hr, hopen] at hx
      | raw buffer =>
        have hended : ((g₀.after past).reading tier c buffer chunk).1.ended.isSome := by
          simpa [hr, hopen] using hx
        obtain ⟨error, he⟩ := Option.isSome_iff_exists.1 hended
        exact .frameRejected hr he
    · simp [hopen] at hx
  | message tier name m =>
    unfold next afterInput inputOf at hx
    dsimp only at hx
    split_ifs at hx with hn hl
    · subst hn
      exact .tooLong tier hl
    · subst hn
      cases hr : c.wire with
      | raw => simp [hr, hopen] at hx
      | socket hasAsked answersPings heardAt =>
        have hended : (Transport.takeInput (g₀.after past).server tier c.channel hasAsked
            (.message m)).1.ended.isSome := by simpa [hr, hopen] using hx
        obtain rfl | ⟨rfl, content, error, hm, he⟩ := Transport.takeInput_message_ended hended
        · exact .closed tier
        · exact .joinRejected hr hm he
    · simp [hopen] at hx
  | hangUp tier name =>
    unfold next at hx
    dsimp only at hx
    split_ifs at hx with hn
    · subst hn
      exact .hungUp tier
    · simp [hopen] at hx
  | second tier =>
    have hs := (g₀.after past).second_next tier c
    rw [hk.options] at hs
    generalize (g₀.after past).next (.second tier) c = x at hx hs
    cases hs with
    | idle | answered => simp [hopen] at hx
    | silent hr hd hlate => exact ht.silent hp hw hopen hr hd hlate tier

/-- What was quiet stays so until the client is heard again. -/
theorem Traced.quiet_next (ht : g₀.Traced past c)
    (hnow : (g₀.after (past ++ [e])).now = (g₀.after past).now + seconds [e])
    {hasAsked answersPings : Bool} {heardAt : Nat}
    (hx : ((g₀.after past).next e c).wire = .socket hasAsked answersPings heardAt) :
    ∃ earlier quiet, past ++ [e] = earlier ++ quiet ∧
      (∀ tier m, .message tier c.name m ∉ quiet) ∧
      heardAt + seconds quiet = (g₀.after (past ++ [e])).now := by
  obtain hheard | ⟨⟨_, hwire⟩, he⟩ := heard_next hx
  · exact ⟨past ++ [e], [], (List.append_nil _).symm, nofun, by rw [hnow]; exact hheard⟩
  · obtain ⟨earlier, quiet, hpast, hquiet, hheard⟩ := ht.quiet hwire
    refine ⟨earlier, quiet ++ [e], by rw [hpast, List.append_assoc], fun tier m hm => ?_, ?_⟩
    · rcases List.mem_append.1 hm with hm | hm
      · exact hquiet tier m hm
      · exact he tier m (List.mem_singleton.1 hm).symm
    · rw [hnow, ← hheard, seconds_append, Nat.add_assoc]

include hp in
/-- A client that answers pings is heard at every heartbeat. -/
theorem Traced.answered_next (hk : g₀.Known past) (ht : g₀.Traced past c)
    {hasAsked : Bool} {heardAt : Nat}
    (hx : ((g₀.after past).next e c).wire = .socket hasAsked true heardAt)
    (hopen : ((g₀.after past).next e c).isEnded = false) :
    (g₀.after past).now + seconds [e] ≤ heardAt +
      ((g₀.after past).now + seconds [e] - c.acceptedAt) % g₀.server.options.pingPeriod := by
  have hopen' : c.isEnded = false :=
    Bool.eq_false_iff.2 fun h => by
      simp [((g₀.after past).becomes_next e c).isEnded h] at hopen
  obtain rfl | ⟨⟨_, hwire⟩, -⟩ := heard_next hx
  · exact Nat.le_add_right ..
  · have ha := ht.answered hwire hopen'
    cases e with
    | second tier =>
      have hs := (g₀.after past).second_next tier c
      rw [hk.options] at hs
      generalize (g₀.after past).next (.second tier) c = x at hx hopen hs
      cases hs with
      | idle hd => exact heard_at_heartbeat hp ht.acceptedAt ha (hd hwire hopen')
      | answered =>
        cases hx
        exact Nat.le_add_right ..
      | silent => cases hopen
    | openRaw | openSocket | bytes | message | hangUp | push | shutdown => exact ha

theorem Fresh.traced (hf : g.Fresh x) (hnow : g.now = (g₀.after past).now) : g₀.Traced past x where
  cause h := by simp [hf.isEnded] at h
  acceptedAt := Nat.le_of_eq (hf.acceptedAt.trans hnow)
  quiet h := by
    obtain hw | ⟨answersPings, hw⟩ := hf.wire
    · simp [hw] at h
    · rw [hw] at h
      cases h
      exact ⟨past, [], (List.append_nil _).symm, nofun, hnow⟩
  answered h _ := by
    obtain hw | ⟨answersPings, hw⟩ := hf.wire
    · simp [hw] at h
    · rw [hw] at h
      cases h
      exact hnow ▸ Nat.le_add_right ..

include hp hw in
/-- What is known of a connection is kept by an event. -/
theorem Traced.next (hk : g₀.Known past) (hc : c ∈ (g₀.after past).clients)
    (hnow : (g₀.after (past ++ [e])).now = (g₀.after past).now + seconds [e]) :
    g₀.Traced (past ++ [e]) ((g₀.after past).next e c) := by
  have ht := hk.traced c hc
  have hb := (g₀.after past).becomes_next e c
  refine ⟨fun hx => ?_, ?_, fun hx => ?_, fun hx hopen => ?_⟩
  · cases hopen : c.isEnded with
    | true => exact (ht.cause hopen).concat hb e
    | false =>
      exact ⟨past, e, [], c, rfl, hc, hb.name.symm, hb.channel.symm, hopen,
        cause_of_next hp hw hk ht hopen hx⟩
  · rw [hb.acceptedAt, hnow]
    exact Nat.le_trans ht.acceptedAt (Nat.le_add_right ..)
  · rw [hb.name]
    exact ht.quiet_next hnow hx
  · rw [hnow, hb.acceptedAt]
    exact ht.answered_next hp hk hx hopen

include hp hw in
/-- **The run.** What is known of the gateway holds after every list of events. -/
theorem known_after (hempty : g₀.clients = []) (events : List Event) : g₀.Known events := by
  induction events using List.reverseRecOn with
  | nil =>
    refine ⟨rfl, ?_, fun c hc => ?_⟩
    · rw [after_nil, hempty]
      exact List.nodup_nil
    · rw [after_nil, hempty] at hc
      exact absurd hc List.not_mem_nil
  | append_singleton past e hk =>
    have hs := stepped_step hk.distinct (hk.options ▸ hp) e
    rw [← after_concat] at hs
    refine ⟨hs.options.trans hk.options, hs.distinct, fun x hx => ?_⟩
    obtain hf | ⟨c, hc, rfl⟩ := hs.clients x hx
    · exact hf.2.traced (by rw [hs.now, hf.1]; rfl)
    · exact Traced.next hp hw hk hc hs.now

end

/-! ## Accepting -/

/-- The name of the connection that an event opens. -/
def opened? (g : Gateway) : Event → Option String
  | .openRaw name listener => if (g.openRaw name listener).1 then some name else none
  | .openSocket name target answersPings =>
    if (g.openSocket name target answersPings).1 = 101 then some name else none
  | .bytes .. | .message .. | .hangUp .. | .push .. | .second _ | .shutdown => none

theorem openRaw_eq_accept {name : String} {listener : Nat}
    (h : (g.openRaw name listener).1 = true) :
    (g.openRaw name listener).2 = g.accept name (.raw []) := by
  unfold openRaw at h ⊢
  split
  · rfl
  · next hc => simp [hc] at h

theorem openSocket_eq_accept {name target : String} {answersPings : Bool}
    (h : (g.openSocket name target answersPings).1 = 101) :
    (g.openSocket name target answersPings).2 =
      g.accept name (.socket false answersPings g.now) := by
  unfold openSocket at h ⊢
  split
  · split
    · rfl
    · next hr hs => simp [hr, hs] at h
  · next hr => simp [hr] at h

/-- Where writers can start, a connection that is opened is open. -/
theorem exists_open (hp : Transport.isPeriod g.server.options.pingPeriod) {name : String}
    (h : g.opened? e = some name) :
    ∃ x ∈ (g.step e).clients, x.name = name ∧ x.isEnded = false := by
  have hopen : ∀ wire, ∃ x ∈ (g.accept name wire).clients, x.name = name ∧ x.isEnded = false :=
    fun wire => by
      rw [accept_eq hp]
      exact ⟨_, List.mem_append_right _ (List.mem_singleton_self _), rfl, rfl⟩
  rw [step, (sameBut_settle _).clients]
  cases e with
  | openRaw name' listener =>
    obtain ⟨ho, hn⟩ := Option.ite_none_right_eq_some.1 h
    cases hn
    rw [handle, openRaw_eq_accept ho]
    exact hopen _
  | openSocket name' target answersPings =>
    obtain ⟨ho, hn⟩ := Option.ite_none_right_eq_some.1 h
    cases hn
    rw [handle, openSocket_eq_accept ho]
    exact hopen _
  | bytes | message | hangUp | push | second | shutdown => cases h

/-- Without a time between heartbeats, every connection ends when it is accepted. -/
theorem isEnded_of_accept {name : String} {wire : Wire}
    (hp : Transport.isPeriod g.server.options.pingPeriod = false)
    (hx : x ∈ (g.accept name wire).clients) (hn : x.name = name) : x.isEnded = true := by
  unfold accept at hx
  dsimp only at hx
  have hoff : ¬ Transport.isPeriod g.server.openChannel.2.options.pingPeriod := by
    rw [show g.server.openChannel.2.options = g.server.options from rfl, hp]
    exact Bool.false_ne_true
  rw [if_neg hoff] at hx
  obtain ⟨y, -, rfl⟩ := List.mem_map.1 hx
  split_ifs at hn ⊢ with h
  · rfl
  · exact absurd hn h

end Gateway

/-! ## Serving a configuration -/

theorem SequenceId.Generator.new?_of_le {worker : Nat} (h : worker ≤ maxWorker) :
    new? worker = some (.ofWorker worker) := by
  simp [new?, ofWorker, h]

/-- A listener fails to open only for an address that is refused. -/
theorem openListeners_error {refusal? : String → Option String} {addresses : List String}
    {e : StartError} (h : openListeners refusal? addresses = .error e) :
    ∃ address reason, address ∈ addresses ∧ refusal? address = some reason ∧
      e = .bind address reason := by
  induction addresses with
  | nil => cases h
  | cons address rest ih =>
    unfold openListeners at h
    split at h
    · next reason hr =>
      cases h
      exact ⟨address, reason, List.mem_cons_self .., hr, rfl⟩
    · obtain ⟨address', reason, hm, hr, he⟩ := ih h
      exact ⟨address', reason, List.mem_cons_of_mem _ hm, hr, he⟩

/-! ## What libraries are asked for -/

/-- What a library may refuse. -/
inductive Demand where
  /-- A queue that holds so many messages. -/
  | queue (bound : Nat)
  /-- Room in advance for so many entries. -/
  | room (entries : Nat)
  /-- A timer that beats once in so many seconds, the first time after as many. -/
  | timer (seconds : Nat)
  deriving DecidableEq, Repr

/-- How much the libraries take. -/
structure Limits where
  /-- The greatest bound of a queue. -/
  queueBound : Nat
  /-- The most entries for which there is room. -/
  capacity : Nat
  /-- How many seconds the clock goes on. -/
  horizon : Nat

/-- A demand that is not refused. -/
def Limits.Allows (l : Limits) : Demand → Prop
  | .queue bound => 0 < bound ∧ bound ≤ l.queueBound
  | .room entries => entries ≤ l.capacity
  | .timer seconds => Transport.isPeriod seconds ∧ seconds ≤ l.horizon

/-- A bucket makes room for users, rooms and workers, and a queue for every worker. -/
def Bucket.demands (b : Bucket) (config : BucketConfig) : List Demand :=
  .room config.channelSize :: .room config.roomSize :: .room b.workerCount ::
    List.replicate b.workerCount (.queue b.queueBound)

/-- What is asked for when a server is put together. -/
def Blueprint.demands (b : Blueprint) : List Demand :=
  let hub := Hub.new b.buckets
  .room hub.buckets.length :: hub.buckets.flatMap (·.demands b.buckets)

/-- What is asked for when a connection is opened: its mailbox, and the timer of its writer. -/
def ConnectionOptions.demands (o : ConnectionOptions) : List Demand :=
  [.queue (Mailbox.new o.broadcastSize).capacity, .timer o.pingPeriod]

theorem Bucket.allows_demands_iff {l : Limits} {config : BucketConfig} {id : Nat} :
    (∀ d ∈ (Bucket.new id config).demands config, l.Allows d) ↔
      config.channelSize ≤ l.capacity ∧ config.roomSize ≤ l.capacity ∧
      max config.routineAmount 1 ≤ l.capacity ∧ max config.routineSize 1 ≤ l.queueBound := by
  have hcount : (Bucket.new id config).workerCount = max config.routineAmount 1 :=
    List.length_replicate
  have hbound : (Bucket.new id config).queueBound = max config.routineSize 1 := rfl
  rw [demands, hcount, hbound]
  simp only [List.forall_mem_cons, List.mem_replicate, Limits.Allows]
  refine and_congr_right' (and_congr_right' (and_congr_right' ⟨fun h => ?_, ?_⟩))
  · exact (h _ ⟨by omega, rfl⟩).2
  · rintro h d ⟨-, rfl⟩
    exact ⟨by omega, h⟩

theorem Blueprint.allows_demands_iff {l : Limits} {b : Blueprint} :
    (∀ d ∈ b.demands, l.Allows d) ↔ max b.buckets.count 1 ≤ l.capacity ∧
      b.buckets.channelSize ≤ l.capacity ∧ b.buckets.roomSize ≤ l.capacity ∧
      max b.buckets.routineAmount 1 ≤ l.capacity ∧ max b.buckets.routineSize 1 ≤ l.queueBound := by
  have hcount : (Hub.new b.buckets).buckets.length = max b.buckets.count 1 := by
    simp [Hub.new]
  have hfirst : Bucket.new 0 b.buckets ∈ (Hub.new b.buckets).buckets :=
    List.mem_map.mpr ⟨0, List.mem_range.mpr (by omega), rfl⟩
  rw [demands]
  simp only [List.forall_mem_cons, Limits.Allows, hcount]
  refine and_congr_right fun _ => ⟨fun h => ?_, fun h d hd => ?_⟩
  · exact Bucket.allows_demands_iff.mp fun d hd => h d (List.mem_flatMap.mpr ⟨_, hfirst, hd⟩)
  · obtain ⟨bucket, hbucket, hd⟩ := List.mem_flatMap.mp hd
    obtain ⟨id, -, rfl⟩ := List.mem_map.mp hbucket
    exact Bucket.allows_demands_iff.mpr h d hd

namespace Config.AppConfig

variable {c : AppConfig} {host : Host} {server : Server} {l : Limits}

/-- The sizes and the time between two heartbeats are within the limits. -/
structure FitsIn (c : AppConfig) (host : Host) (l : Limits) : Prop where
  bucketCount : max (c.bucketCount.getD host.processors) 1 ≤ l.capacity
  channelSize : c.channelSize ≤ l.capacity
  roomSize : c.roomSize ≤ l.capacity
  routineAmount : max c.routineAmount 1 ≤ l.capacity
  routineSize : max c.routineSize 1 ≤ l.queueBound
  broadcastSize : max c.connection.broadcastSize 1 ≤ l.queueBound
  pingPeriod : c.connection.pingPeriod ≤ l.horizon

/-- Nothing is refused if the sizes are within the limits, and only then. -/
theorem allows_demands_iff (hp : Transport.isPeriod c.connection.pingPeriod) :
    (∀ d ∈ (c.blueprint host).demands ++ c.connection.demands, l.Allows d) ↔ c.FitsIn host l := by
  have hmailbox : (Mailbox.new c.connection.broadcastSize).capacity =
      max c.connection.broadcastSize 1 := rfl
  have hpositive : 0 < max c.connection.broadcastSize 1 := by omega
  rw [List.forall_mem_append, Blueprint.allows_demands_iff, ConnectionOptions.demands]
  simp only [List.forall_mem_cons, Limits.Allows, hmailbox, hpositive, hp, true_and]
  constructor
  · rintro ⟨⟨hcount, hchannels, hrooms, hworkers, hqueue⟩, hbroadcast, hperiod, -⟩
    exact ⟨hcount, hchannels, hrooms, hworkers, hqueue, hbroadcast, hperiod⟩
  · intro h
    exact ⟨⟨h.bucketCount, h.channelSize, h.roomSize, h.routineAmount, h.routineSize⟩,
      h.broadcastSize, h.pingPeriod, nofun⟩

/-- The server is what a configuration describes, and it can be served: no library refuses what it
is asked for, ids are issued for the worker that is asked for, every user has a bucket, an instance
starts with a path to serve unless an address or the registry is refused, each connection that is
opened is open, and each that the gateway ends had a cause. -/
structure Serves (c : AppConfig) (host : Host) (l : Limits) (server : Server) : Prop where
  built : (c.blueprint host).build = .ok server
  allowed : ∀ d ∈ (c.blueprint host).demands ++ server.options.demands, l.Allows d
  issuer : SequenceId.Generator.new? c.workerId = some server.generator
  bucketOf_lt : ∀ user, server.bucketOf user < server.hub.buckets.length
  start : ∀ refusal?,
    (∃ i, Instance.start c host refusal? = .ok i ∧ i.server = server ∧ i.failure? = none) ∨
    (∃ address reason, address ∈ c.listenAddresses ∧ refusal? address = some reason ∧
      Instance.start c host refusal? = .error (.bind address reason)) ∨
    ∃ r failure, c.registry = some r ∧ (Redis.Settings.ofConfig r).check = .error failure ∧
      Instance.start c host refusal? = .error (.cache failure.message)
  opens : ∀ isReachable events e name,
    ((Gateway.new c server isReachable).after events).opened? e = some name →
      ∃ x ∈ ((Gateway.new c server isReachable).after (events ++ [e])).clients,
        x.name = name ∧ x.isEnded = false
  cause : ∀ isReachable events, ∀ x ∈ ((Gateway.new c server isReachable).after events).clients,
    x.isEnded = true → (Gateway.new c server isReachable).HadCause events x

/-- The path decides whether an instance that starts goes on. -/
theorem start_cases (hb : (c.blueprint host).build = .ok server)
    (refusal? : String → Option String) :
    (∃ i, Instance.start c host refusal? = .ok i ∧ i.server = server ∧ i.wsPath = c.wsPath) ∨
    (∃ address reason, address ∈ c.listenAddresses ∧ refusal? address = some reason ∧
      Instance.start c host refusal? = .error (.bind address reason)) ∨
    ∃ r failure, c.registry = some r ∧ (Redis.Settings.ofConfig r).check = .error failure ∧
      Instance.start c host refusal? = .error (.cache failure.message) := by
  unfold Instance.start
  rw [hb]
  dsimp only
  cases hl : openListeners refusal? c.listenAddresses with
  | error e =>
    obtain ⟨address, reason, hm, hr, rfl⟩ := openListeners_error hl
    exact .inr (.inl ⟨address, reason, hm, hr, rfl⟩)
  | ok _ =>
    unfold Instance.registration?
    cases hr : c.registry with
    | none => exact .inl ⟨_, rfl, rfl, rfl⟩
    | some r =>
      dsimp only
      cases hf : (Redis.Settings.ofConfig r).check with
      | error failure => exact .inr (.inr ⟨r, failure, rfl, hf, rfl⟩)
      | ok _ => exact .inl ⟨_, rfl, rfl, rfl⟩

/-- **A loaded configuration can be served**, if its path is a route, there is a time between two
heartbeats, and its sizes are within the limits of the libraries. -/
theorem exists_serves {vars : Variables} (hload : load vars = .ok c)
    (hpath : (Http.route? c.wsPath).isSome) (hp : Transport.isPeriod c.connection.pingPeriod)
    (host : Host) (l : Limits) (hfits : c.FitsIn host l) : ∃ server, c.Serves host l server := by
  have hsound := (load_eq_ok_iff.1 hload).2
  let server : Server :=
    .new (c.instanceId host) c.connection (c.buckets host.processors) (.ofWorker c.workerId)
  have hknown : ∀ isReachable events, (Gateway.new c server isReachable).Known events :=
    fun _ events => Gateway.known_after hp hsound.pingPeriod rfl events
  refine ⟨server, rfl, (allows_demands_iff hp).mpr hfits,
    SequenceId.Generator.new?_of_le hsound.workerId, fun user => ?bucket, fun refusal? => ?start,
    fun isReachable events e name h => ?opens, fun isReachable events x hx => ?cause⟩
  case bucket =>
    have hpos := (Hub.sound_new (c.buckets host.processors)).nonempty
    have hlt := user.bucketIndex_lt (Hub.new (c.buckets host.processors)).buckets.length
    rwa [Nat.max_eq_left hpos] at hlt
  case start =>
    obtain ⟨i, hi, hserver, hwsPath⟩ | h := start_cases rfl refusal?
    · exact .inl ⟨i, hi, hserver, by rw [Instance.failure?, hwsPath, if_pos hpath]⟩
    · exact .inr h
  case opens =>
    rw [Gateway.after_concat]
    exact Gateway.exists_open ((hknown isReachable events).options ▸ hp) h
  case cause => exact ((hknown isReachable events).traced x hx).cause

theorem exists_serves_plain :
    let l : Limits := ⟨1 <<< 61 - 1, 1 <<< 56, 1 <<< 62⟩
    load (withRequired []) = .ok plain ∧ (Http.route? plain.wsPath).isSome ∧
      Transport.isPeriod plain.connection.pingPeriod ∧ plain.FitsIn ⟨4, "a"⟩ l ∧
      ∃ server, plain.Serves ⟨4, "a"⟩ l server := by
  intro l
  have hload : load (withRequired []) = .ok plain := by decide +kernel
  have hpath : (Http.route? plain.wsPath).isSome := by decide +kernel
  have hp : Transport.isPeriod plain.connection.pingPeriod := by decide +kernel
  have hfits : plain.FitsIn ⟨4, "a"⟩ l := by
    constructor <;> decide +kernel
  exact ⟨hload, hpath, hp, hfits, exists_serves hload hpath hp ⟨4, "a"⟩ l hfits⟩

/-- A path that is no route, and no time between heartbeats, are loaded all the same. The first ends
the instance. With the second, a connection ends when it is accepted, without a cause. -/
theorem loaded_yet_unserved :
    (load (withRequired [("GATEWAY_WS_PATH", "ws")]) = .ok { plain with wsPath := "ws" } ∧
      ∃ i, Instance.start { plain with wsPath := "ws" } ⟨4, "a"⟩ (fun _ => none) = .ok i ∧
        i.failure? = some (.internal "invalid WebSocket path")) ∧
    ∃ c server, load (withRequired [("PING_PERIOD_SECS", "0")]) = .ok c ∧
      (c.blueprint ⟨4, "a"⟩).build = .ok server ∧
      ∃ x ∈ ((Gateway.new c server true).after [.openSocket "a" "/ws" true]).clients,
        x.isEnded = true ∧
          ¬ (Gateway.new c server true).HadCause [.openSocket "a" "/ws" true] x := by
  refine ⟨⟨by decide +kernel, _, rfl, by decide +kernel⟩,
    { plain with connection := { ConnectionOptions.standard with pingPeriod := 0 } }, _,
    by decide +kernel, rfl, ⟨"a", ⟨0⟩, 0, .socket false true 0, true⟩, by decide +kernel, rfl, ?_⟩
  rintro ⟨before, e, later, c, hevents, -, -, -, -, hcause⟩
  have he : e ∈ [Gateway.Event.openSocket "a" "/ws" true] :=
    hevents ▸ List.mem_append_right before (List.mem_cons_self ..)
  rw [List.mem_singleton.1 he] at hcause
  cases hcause

end Config.AppConfig

end ChatRelay
