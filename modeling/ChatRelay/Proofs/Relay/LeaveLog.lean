import ChatRelay.Proofs.Relay.LeaveCalls

/-!
# One leave call for every session

Over a whole run the business tier is told of every channel once that had joined a room before its
first teardown and has been torn down: of the user and the room that the channel carries. It is told
of no other channel, and it makes no difference how often a channel is torn down, when the answers
to joins arrive, or whether the calls succeed.

What the tier is told is a function of the channels as they are at the end (`Channel.farewell?`),
since a channel that is marked keeps its user and its room. `Fate` lists the ways in which a move
can touch one channel; along it the marks of a channel are read off the history (`Server.Matches`).
-/

namespace ChatRelay

/-! ## What a history tells -/

/-- The leave calls of a history, in their order. -/
def leaveCalls (history : List (Move × Answer)) : List DisconnectRequest :=
  history.flatMap fun e => e.2.leaveCalls

/-- The channel is torn down, be it for the first time or not. -/
def tearsDown (c : ChannelRef) : Move × Answer → Bool
  | (.call k, .left _) => k.channel? = some c
  | _ => false

/-- The channel joins a room, and the join succeeds. -/
def entersRoom (c : ChannelRef) : Move × Answer → Bool
  | (.call k, .joined (.ok _) _) => k.entry?.any fun (c', room) => c' = c ∧ room.isRoom
  | _ => false

/-- The channel has been torn down, and had joined a room before that happened first. -/
def hasLeftRoom (history : List (Move × Answer)) (c : ChannelRef) : Bool :=
  history.any (tearsDown c) && (history.takeWhile fun e => !tearsDown c e).any (entersRoom c)

theorem leaveCalls_concat (history : List (Move × Answer)) (e : Move × Answer) :
    leaveCalls (history ++ [e]) = leaveCalls history ++ e.2.leaveCalls := by
  rw [leaveCalls, List.flatMap_append, List.flatMap_singleton, leaveCalls]

/-- What the business tier is told of a channel: that its user has left its room, once the channel
is marked, if it has joined a room. -/
def Channel.farewell? (channel : Channel) : Option DisconnectRequest :=
  if channel.isClosing ∧ channel.isJoined ∧ channel.room.isRoom then
    some ⟨channel.user, channel.room⟩
  else none

/-- The same move, but that a leave call may be answered otherwise. -/
def Move.SameButLeaveAnswer (m m' : Move) : Prop :=
  m = m' ∨ ∃ tier tier' c, m = .call (.leave tier c) ∧ m' = .call (.leave tier' c)

/-! ## The fate of a channel -/

/-- The ways in which an answered move can touch a channel. -/
inductive Fate (c : ChannelRef) : Move × Answer → Option Channel → Option Channel → Prop
  /-- Only its mailbox may change. A teardown is a further one. -/
  | kept {e : Move × Answer} {old : Option Channel} (f : Mailbox → Mailbox) :
    entersRoom c e = false → (tearsDown c e = true → old.any Channel.isClosing = true) →
    Fate c e old (old.map fun ch => { ch with mailbox := f ch.mailbox })
  | opened {e : Move × Answer} (connId bound : Nat) : entersRoom c e = false →
    tearsDown c e = false → Fate c e none (some (.new connId bound))
  | joined {k : Call} {user : UserId} {room : RoomId} {calls : List TierCall} {ch : Channel}
    (link : Option Link) : k.entry? = some (c, room) → ch.isJoined = false →
    ch.isClosing = false → user.isUnassigned = false →
    Fate c (.call k, .joined (.ok user) calls) (some ch) (some { ch with user, room, link })
  | closed {tier : BusinessTier} {calls : List TierCall} {ch : Channel} (link : Option Link) :
    ch.isClosing = false →
    Fate c (.call (.leave tier c), .left calls) (some ch)
      (some { ch with isClosing := true, link })

namespace Server

variable {s s' : Server} {m : Move} {a : Answer} {c : ChannelRef} {channel : Channel}

theorem fate_of_mapMail {e : Move × Answer} (hr : ∃ f, s'.hub.roster = s.hub.roster.mapMail f)
    (henters : entersRoom c e = false) (htears : tearsDown c e = false) :
    Fate c e (s.channel? c) (s'.channel? c) := by
  obtain ⟨f, hr⟩ := hr
  have hc : s'.channel? c =
      (s.channel? c).map fun ch => { ch with mailbox := f c ch.mailbox } := by
    rw [channel?, hr, Roster.channel?_mapMail]
    rfl
  rw [hc]
  refine .kept (f c) henters ?_
  rw [htears]
  exact fun h => absurd h Bool.false_ne_true

theorem fate_of_eq {e : Move × Answer} (hc : s'.channel? c = s.channel? c)
    (henters : entersRoom c e = false)
    (htears : tearsDown c e = true → (s.channel? c).any Channel.isClosing = true) :
    Fate c e (s.channel? c) (s'.channel? c) := by
  have hkept := Fate.kept (fun m => m) henters htears
  rw [hc]
  simpa using hkept

/-- A move changes a channel in one of the ways of `Fate`. -/
theorem Outcome.fate (hs : s.hub.Sound) (ho : s.Outcome m a s') (c : ChannelRef) :
    Fate c (m, a) (s.channel? c) (s'.channel? c) := by
  cases ho with
  | stray | refused | missed => exact fate_of_eq rfl rfl nofun
  | opened =>
    have hchannel := s.channel?_openChannel c
    by_cases hc : c = s.openChannel.1
    · have hold : s.channel? c = none := by rw [hc, channel?_openChannel_fst]
      rw [hold, hchannel, if_pos hc]
      exact .opened _ _ rfl rfl
    · rw [if_neg hc] at hchannel
      exact fate_of_eq hchannel rfl nofun
  | @admitted k c' room user calls b channel _ hk ha =>
    obtain ⟨link, hchannels⟩ := ha.channels hs
    by_cases hc : c = c'
    · subst hc
      rw [hchannels, if_pos rfl, ha.channel?]
      exact .joined link hk ha.fresh ha.isOpen ha.assigned
    · have henters : entersRoom c (.call k, .joined (.ok user) calls) = false := by
        simp [entersRoom, hk, Ne.symm hc]
      have hchannel := hchannels c
      rw [if_neg hc] at hchannel
      exact fate_of_eq hchannel henters nofun
  | @leftBefore tier c' channel hc' hcl =>
    refine fate_of_eq rfl rfl ?_
    intro htears
    simp only [tearsDown, Call.channel?, Option.some.injEq, decide_eq_true_eq] at htears
    rw [← htears, hc', Option.any_some, hcl]
  | @leftUnjoined tier c' channel hc' hopen hj =>
    have hchannel := channel?_beginClose hc' c
    by_cases hc : c = c'
    · subst hc
      rw [if_pos rfl] at hchannel
      rw [hc', show ({ s with hub := { s.hub with roster := (s.hub.roster.beginClose c).2 } } :
        Server).channel? c = _ from hchannel]
      exact .closed channel.link hopen
    · rw [if_neg hc] at hchannel
      refine fate_of_eq hchannel rfl ?_
      simp [tearsDown, Call.channel?, Ne.symm hc]
  | @left tier c' channel b closed calls _ hd =>
    have hchannel := hd.channels c
    by_cases hc : c = c'
    · subst hc
      rw [hchannel, if_pos rfl, hd.channel?]
      exact .closed none hd.isOpen
    · rw [if_neg hc] at hchannel
      refine fate_of_eq hchannel rfl ?_
      simp [tearsDown, Call.channel?, Ne.symm hc]
  | @offered now _ msg c' _ =>
    refine fate_of_mapMail ⟨Roster.mailOf c' fun m => (m.offer (s.stamp now msg).1).2, ?_⟩ rfl rfl
    rw [withMail, stamp_hub]
  | queued =>
    refine fate_of_mapMail ⟨fun _ m => m, ?_⟩ rfl rfl
    rw [Hub.broadcastAll_roster, Roster.mapMail_id]
  | taken | closed => exact fate_of_mapMail ⟨_, rfl⟩ rfl rfl
  | @worked w => exact fate_of_mapMail (hs.exists_mapMail_work w) rfl rfl

/-! ## The marks of a channel -/

/-- A channel is marked if the history tells of its teardown, and has joined a room if the history
tells of that before. -/
structure Matches (s : Server) (history : List (Move × Answer)) (c : ChannelRef) : Prop where
  closing : history.any (tearsDown c) = (s.channel? c).any Channel.isClosing
  inRoom : (history.takeWhile fun e => !tearsDown c e).any (entersRoom c) =
    (s.channel? c).any fun ch => ch.isJoined && ch.room.isRoom

/-- The last entry of a history counts as long as there was no teardown before. -/
theorem any_takeWhile_concat (history : List (Move × Answer)) (e : Move × Answer) :
    ((history ++ [e]).takeWhile fun e => !tearsDown c e).any (entersRoom c) =
      ((history.takeWhile fun e => !tearsDown c e).any (entersRoom c) ||
        !history.any (tearsDown c) && !tearsDown c e && entersRoom c e) := by
  induction history with
  | nil => cases h : tearsDown c e <;> simp [h]
  | cons first history ih =>
    rw [List.cons_append, List.takeWhile_cons, List.takeWhile_cons, List.any_cons]
    cases h : tearsDown c first with
    | true => simp
    | false =>
      simp only [Bool.not_false, if_true, List.any_cons, ih, Bool.false_or, Bool.or_assoc]

theorem matches_new (id : String) (options : ConnectionOptions) (config : BucketConfig)
    (generator : SequenceId.Generator) (c : ChannelRef) :
    (new id options config generator).Matches [] c := ⟨rfl, rfl⟩

/-- One more move changes the marks of a channel in the way it changes what the history tells. -/
theorem Matches.next {history : List (Move × Answer)} {e : Move × Answer}
    (h : s.Matches history c) (hf : Fate c e (s.channel? c) (s'.channel? c)) :
    s'.Matches (history ++ [e]) c := by
  obtain ⟨hclosing, hroom⟩ := h
  constructor
  · rw [List.any_append, List.any_cons, List.any_nil, Bool.or_false, hclosing]
    generalize s.channel? c = old, s'.channel? c = new at hf
    cases hf with
    | kept f _ htears =>
      have hsame : (old.map fun ch : Channel => { ch with mailbox := f ch.mailbox }).any
          Channel.isClosing = old.any Channel.isClosing := by
        cases old <;> rfl
      rw [hsame]
      cases hold : old.any Channel.isClosing with
      | true => rfl
      | false =>
        cases ht : tearsDown c e with
        | true => rw [← htears ht, hold]; rfl
        | false => rfl
    | opened connId bound _ htears => rw [htears]; rfl
    | joined link _ _ hopen => simp [hopen, tearsDown]
    | closed link => simp [tearsDown, Call.channel?]
  · rw [any_takeWhile_concat, hroom, hclosing]
    generalize s.channel? c = old, s'.channel? c = new at hf
    cases hf with
    | kept f henters =>
      rw [henters, Bool.and_false, Bool.or_false]
      cases old <;> rfl
    | opened connId bound henters =>
      rw [henters, Bool.and_false, Bool.or_false]
      rfl
    | @joined k user room calls ch link hk hfresh hopen hassigned =>
      have henters : entersRoom c (.call k, .joined (.ok user) calls) = room.isRoom := by
        simp [entersRoom, hk]
      have hjoined : ({ ch with user, room, link } : Channel).isJoined = true := by
        simp [Channel.isJoined, hassigned]
      rw [henters, Option.any_some, Option.any_some, Option.any_some, hjoined, hfresh, hopen]
      rfl
    | @closed tier calls ch link hopen =>
      have henters : entersRoom c (.call (.leave tier c), .left calls) = false := rfl
      rw [henters, Bool.and_false, Bool.or_false]
      rfl

theorem matches_after (id : String) (options : ConnectionOptions) (config : BucketConfig)
    (generator : SequenceId.Generator) (run : List Move) (c : ChannelRef) :
    ((new id options config generator).after run).Matches
      ((new id options config generator).history run) c := by
  induction run using List.reverseRecOn with
  | nil => exact matches_new id options config generator c
  | append_singleton run m ih =>
    have hs := sound_after (s := new id options config generator) (Hub.sound_new config) run
    rw [history_concat, after_concat]
    exact ih.next ((step_outcome hs m).fate hs c)

end Server

/-! ## Lists that differ at one place -/

theorem filterMap_congr_getElem? {α β : Type} {f : α → Option β} {l l' : List α}
    (h : ∀ i : Nat, l'[i]?.bind f = l[i]?.bind f) : l'.filterMap f = l.filterMap f := by
  induction l generalizing l' with
  | nil =>
    rw [List.filterMap_nil, List.filterMap_eq_nil_iff]
    intro a ha
    obtain ⟨i, hi⟩ := List.mem_iff_getElem?.mp ha
    have hnone := h i
    rwa [hi, List.getElem?_nil, Option.bind_some, Option.bind_none] at hnone
  | cons x l ih =>
    cases l' with
    | nil =>
      have hx : f x = none := (h 0).symm
      rw [List.filterMap_cons_none hx]
      exact ih fun i => h (i + 1)
    | cons y l' =>
      have hxy : f y = f x := h 0
      have htail := ih fun i => h (i + 1)
      rw [List.filterMap_cons, List.filterMap_cons, hxy, htail]

/-- A value that comes up at a place that had none before comes in addition to the others. -/
theorem perm_filterMap_getElem? {α β : Type} {f : α → Option β} {l l' : List α} {i : Nat} {x y : α}
    (hx : l[i]? = some x) (hnone : f x = none) (hy : l'[i]? = some y)
    (h : ∀ j : Nat, j ≠ i → l'[j]?.bind f = l[j]?.bind f) :
    (l'.filterMap f).Perm ((f y).toList ++ l.filterMap f) := by
  induction i generalizing l l' with
  | zero =>
    obtain ⟨l, rfl⟩ := List.head?_eq_some_iff.mp (List.head?_eq_getElem? ▸ hx)
    obtain ⟨l', rfl⟩ := List.head?_eq_some_iff.mp (List.head?_eq_getElem? ▸ hy)
    have htail : l'.filterMap f = l.filterMap f :=
      filterMap_congr_getElem? fun j => h (j + 1) (Nat.succ_ne_zero j)
    rw [List.filterMap_cons_none hnone, List.filterMap_cons, htail]
    cases f y <;> exact .refl _
  | succ i ih =>
    cases l with
    | nil => cases hx
    | cons a l =>
      cases l' with
      | nil => cases hy
      | cons b l' =>
        have hab : f b = f a := h 0 (Nat.succ_ne_zero i).symm
        have htail := ih hx hy fun j hj => h (j + 1) fun he => hj (Nat.succ.inj he)
        rw [List.filterMap_cons, List.filterMap_cons, hab]
        cases f a with
        | none => exact htail
        | some r => exact (htail.cons r).trans (List.perm_middle.symm)

/-! ## The log -/

/-- Only its first teardown changes what the business tier is told of a channel. -/
theorem Fate.bind_farewell? {c : ChannelRef} {e : Move × Answer} {old new : Option Channel}
    (hf : Fate c e old new) (hclosing : ∀ tier ch, e.1 = .call (.leave tier c) → old = some ch →
      ch.isClosing = true) : new.bind Channel.farewell? = old.bind Channel.farewell? := by
  cases hf with
  | kept f => cases old <;> rfl
  | opened => rfl
  | joined link _ _ hopen => simp [Channel.farewell?, hopen]
  | closed link hopen => exact absurd (hclosing _ _ rfl rfl) (Bool.eq_false_iff.mp hopen)

namespace Server

variable {s s' : Server} {m : Move} {c : ChannelRef} {channel : Channel}

/-- What the business tier is told of all channels, in the order of their connections. -/
def farewells (s : Server) : List DisconnectRequest :=
  s.hub.roster.channels.filterMap Channel.farewell?

/-- All channels with their names. -/
def channels (s : Server) : List (ChannelRef × Channel) :=
  s.hub.roster.channels.zipIdx.map fun (channel, i) => (⟨i⟩, channel)

theorem farewells_eq {history : List (Move × Answer)} (h : ∀ c, s.Matches history c) :
    s.farewells = (s.channels.filter fun x => hasLeftRoom history x.1).map fun x =>
      ⟨x.2.user, x.2.room⟩ := by
  have hfst : s.farewells = s.hub.roster.channels.zipIdx.filterMap fun x => x.1.farewell? := by
    rw [farewells]
    conv_lhs => rw [← List.zipIdx_map_fst 0 s.hub.roster.channels, List.filterMap_map]
    rfl
  rw [hfst, channels, List.filter_map, List.map_map, ← List.filterMap_eq_map,
    ← List.filterMap_eq_filter, List.filterMap_filterMap]
  refine List.filterMap_congr fun x hx => ?_
  obtain ⟨channel, i⟩ := x
  have hc : s.channel? ⟨i⟩ = some channel := List.mem_zipIdx_iff_getElem?.mp hx
  have hleft : hasLeftRoom history ⟨i⟩ =
      (channel.isClosing && (channel.isJoined && channel.room.isRoom)) := by
    rw [hasLeftRoom, (h ⟨i⟩).closing, (h ⟨i⟩).inRoom, hc, Option.any_some, Option.any_some]
  cases hl : hasLeftRoom history ⟨i⟩ <;> rw [hl] at hleft <;>
    simp_all [Channel.farewell?, Option.guard]

/-- A teardown tells what there is to be told of its channel, unless it has begun before. -/
theorem disconnect_fst (hs : s.hub.Sound) (hc : s.channel? c = some channel)
    (hopen : channel.isClosing = false) (link : Option Link) :
    (s.disconnect c).1 = ({ channel with isClosing := true, link } : Channel).farewell? := by
  cases hj : channel.isJoined with
  | false =>
    rw [disconnect_of_unjoined hc hopen hj]
    have hj' : ({ channel with isClosing := true, link } : Channel).isJoined = false := hj
    simp [Channel.farewell?, hj']
  | true =>
    obtain ⟨b, closed, s', -, he⟩ := disconnect_of_joined hs hc hopen hj
    rw [he]
    have hj' : ({ channel with isClosing := true, link } : Channel).isJoined = true := hj
    simp [Channel.farewell?, hj']

theorem leaveCalls_leave (hc : s.channel? c = some channel) (tier : BusinessTier) :
    (s.step (.call (.leave tier c))).1.leaveCalls = (s.disconnect c).1.toList := by
  rw [step_leave hc]
  exact leaveCalls_perform_leave tier c

/-- The leave calls of a move are what there is to be told in addition after it. -/
theorem farewells_step (hs : s.hub.Sound) (m : Move) :
    (s.step m).2.farewells.Perm ((s.step m).1.leaveCalls ++ s.farewells) := by
  have hfate := (step_outcome hs m).fate hs
  by_cases hm : ∃ tier c, m = .call (.leave tier c) ∧ ∃ channel, s.channel? c = some channel ∧
      channel.isClosing = false
  · obtain ⟨tier, c, rfl, channel, hc, hopen⟩ := hm
    have hleft := channel?_leave hs hc tier
    rw [leaveCalls_leave hc, disconnect_fst hs hc hopen none]
    refine perm_filterMap_getElem? hc ?_ hleft fun j hj => ?_
    · simp [Channel.farewell?, hopen]
    · refine (hfate ⟨j⟩).bind_farewell? ?_
      rintro tier' ch ⟨⟩
      exact absurd rfl hj
  · have hcalls : (s.step m).1.leaveCalls = [] := by
      rw [List.eq_nil_iff_forall_not_mem]
      intro r hr
      obtain ⟨tier, c, rfl, -, channel, hc, -, -, -, hopen⟩ := (mem_leaveCalls_step hs).mp hr
      exact hm ⟨tier, c, rfl, channel, hc, hopen⟩
    have hsame : (s.step m).2.farewells = s.farewells := by
      refine filterMap_congr_getElem? fun i => ?_
      refine (hfate ⟨i⟩).bind_farewell? ?_
      rintro tier ch rfl hc
      by_contra hopen
      exact hm ⟨tier, ⟨i⟩, rfl, ch, hc, Bool.eq_false_iff.mpr hopen⟩
    rw [hcalls, hsame, List.nil_append]

theorem farewells_after (id : String) (options : ConnectionOptions) (config : BucketConfig)
    (generator : SequenceId.Generator) (run : List Move) :
    (leaveCalls ((new id options config generator).history run)).Perm
      ((new id options config generator).after run).farewells := by
  induction run using List.reverseRecOn with
  | nil => exact .refl _
  | append_singleton run m ih =>
    have hs := sound_after (s := new id options config generator) (Hub.sound_new config) run
    rw [history_concat, after_concat, leaveCalls_concat]
    exact ((ih.append_right _).trans List.perm_append_comm).trans (farewells_step hs m).symm

/-- What the business tier answers to a leave call changes neither the server nor what it is
told. -/
theorem step_of_sameButLeaveAnswer {m' : Move} (h : m.SameButLeaveAnswer m') :
    (s.step m').2 = (s.step m).2 ∧ (s.step m').1.leaveCalls = (s.step m).1.leaveCalls := by
  rcases h with rfl | ⟨tier, tier', c, rfl, rfl⟩
  · exact ⟨rfl, rfl⟩
  · cases hc : s.channel? c with
    | none =>
      have hstray : ∀ tier, s.step (.call (.leave tier c)) = (.unknownChannel, s) := by
        intro tier
        simp [step, isStray, Call.channel?, hc]
      rw [hstray, hstray]
      exact ⟨rfl, rfl⟩
    | some channel =>
      rw [leaveCalls_leave hc, leaveCalls_leave hc, step_leave hc, step_leave hc]
      exact ⟨rfl, rfl⟩

theorem after_of_sameButLeaveAnswer {run run' : List Move}
    (h : List.Forall₂ Move.SameButLeaveAnswer run run') (s : Server) :
    s.after run' = s.after run ∧ leaveCalls (s.history run') = leaveCalls (s.history run) := by
  induction h generalizing s with
  | nil => exact ⟨rfl, rfl⟩
  | @cons m m' run run' hm _ ih =>
    obtain ⟨hserver, hcalls⟩ := step_of_sameButLeaveAnswer (s := s) hm
    obtain ⟨hafter, hlater⟩ := ih (s.step m).2
    constructor
    · change (s.step m').2.after run' = (s.step m).2.after run
      rw [hserver, hafter]
    · change (s.step m').1.leaveCalls ++ leaveCalls ((s.step m').2.history run') =
        (s.step m).1.leaveCalls ++ leaveCalls ((s.step m).2.history run)
      rw [hcalls, hserver, hlater]

/-- Over a run, the business tier is told of each channel once that had joined a room before its
first teardown and has been torn down, and of nothing else: of the user and the room that the
channel carries. No channel that has been torn down is in an index or a room afterwards, and the
answers to the leave calls change neither the server nor the calls. -/
theorem leaveCalls_perm (id : String) (options : ConnectionOptions) (config : BucketConfig)
    (generator : SequenceId.Generator) (run : List Move) :
    let s₀ := new id options config generator
    let history := s₀.history run
    let s := s₀.after run
    (leaveCalls history).Perm
      ((s.channels.filter fun x => hasLeftRoom history x.1).map fun x => ⟨x.2.user, x.2.room⟩) ∧
    (∀ c, history.any (tearsDown c) = true → s.Forgotten c) ∧
    ∀ run', List.Forall₂ Move.SameButLeaveAnswer run run' →
      s₀.after run' = s ∧ leaveCalls (s₀.history run') = leaveCalls history := by
  intro s₀ history s
  have hmatches : ∀ c, s.Matches history c := matches_after id options config generator run
  refine ⟨?_, ?_, ?_⟩
  · rw [← farewells_eq hmatches]
    exact farewells_after id options config generator run
  · intro c hc
    rw [(hmatches c).closing, Option.any_eq_true] at hc
    obtain ⟨channel, hc, hclosing⟩ := hc
    exact forgotten_of_closing (sound_after (Hub.sound_new config) run) hc hclosing
  · intro run' hrun
    exact after_of_sameButLeaveAnswer hrun s₀

/-- A channel in a room is torn down twice, one without a room once, one joins too late, and one
stays. One leave call is made, though it fails. -/
example :
    let s₀ := new "relay" .standard ⟨1, 16, 16, 1, 1⟩ ⟨0, by decide, 0, 0⟩
    let history := s₀.history [.call .openChannel, .call .openChannel, .call .openChannel,
      .call .openChannel, .call (.finishJoin ⟨0⟩ ⟨7⟩ (.ok ⟨5⟩)),
      .call (.finishJoin ⟨1⟩ .none (.ok ⟨5⟩)), .call (.finishJoin ⟨3⟩ ⟨7⟩ (.ok ⟨6⟩)),
      .call (.leave (.rehearsal (some .timeout)) ⟨0⟩), .call (.leave (.rehearsal none) ⟨1⟩),
      .call (.leave (.rehearsal none) ⟨2⟩), .call (.finishJoin ⟨2⟩ ⟨7⟩ (.ok ⟨8⟩)),
      .call (.leave (.rehearsal none) ⟨0⟩)]
    leaveCalls history = [⟨⟨5⟩, ⟨7⟩⟩] ∧ (List.range 4).map (fun i => hasLeftRoom history ⟨i⟩) =
      [true, false, false, false] := by
  decide +kernel

end Server

end ChatRelay
