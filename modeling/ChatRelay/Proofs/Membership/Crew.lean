import ChatRelay.Proofs.Membership.Queues
import ChatRelay.Proofs.Membership.UserIndex
import Mathlib.Logic.Function.Basic

/-!
# The workers of a bucket at work

While a worker hands out a message, calls, registrations, removals and the other workers go on. A
crew is a bucket with what each of its workers is about at one moment. Its steps are the smallest
that others can come between: a worker takes its oldest job, looks up the room, asks the room for
its members, and offers the message to one member after the other.

A worker that nobody comes between, and that works until its queue is empty, does what
`Bucket.runWorker` does at once (`Crew.exists_works_eq_runWorker`).
-/

namespace ChatRelay

/-! ## What operations leave alone -/

namespace Roster

variable {s s' : Roster} {c : ChannelRef}

/-- The mailbox of a channel. -/
def mailbox? (s : Roster) (c : ChannelRef) : Option Mailbox :=
  (s.channel? c).map Channel.mailbox

theorem mailbox?_modifyChannel {f : Channel → Channel} (hf : ∀ ch, (f ch).mailbox = ch.mailbox)
    (s : Roster) (c c' : ChannelRef) : (s.modifyChannel c f).mailbox? c' = s.mailbox? c' :=
  map_channel?_modifyChannel hf s c c'

theorem mailbox?_of_carried? (h : s'.carried? c = s.carried? c) :
    s'.mailbox? c = s.mailbox? c := by
  have hmailbox : ∀ (ch : Channel) link, ({ ch with link } : Channel).mailbox = ch.mailbox :=
    fun _ _ => rfl
  rw [mailbox?, mailbox?, ← map_carried? hmailbox, ← map_carried? hmailbox, h]

theorem mailbox?_mapMail (s : Roster) (f : ChannelRef → Mailbox → Mailbox) (c : ChannelRef) :
    (s.mapMail f).mailbox? c = (s.mailbox? c).map (f c) := by
  rw [mailbox?, mailbox?, channel?_mapMail, Option.map_map, Option.map_map]
  rfl

theorem mailbox?_mailOf (s : Roster) (c : ChannelRef) (f : Mailbox → Mailbox) (c' : ChannelRef) :
    (s.mapMail (mailOf c f)).mailbox? c' =
      if c' = c then (s.mailbox? c').map f else s.mailbox? c' := by
  rw [mailbox?_mapMail]
  unfold mailOf
  split
  next => rfl
  next => exact Option.map_id' ..

theorem takeMail_fst (s : Roster) (c : ChannelRef) (n : Nat) :
    (s.takeMail c n).1 = (s.mailbox? c).elim [] fun m => (m.take n).1 := by
  unfold takeMail mailbox?
  cases s.channel? c <;> rfl

theorem push_fst_eq_elim (s : Roster) (c : ChannelRef) (msg : Msg) :
    (s.push c msg).1 = (s.mailbox? c).elim .dropped fun m => (m.offer msg).1 := by
  unfold push mailbox?
  cases s.channel? c <;> rfl

end Roster

namespace Bucket

variable {b b' b'' : Bucket} {s s' s'' : Roster}

/-- Only the indexes of a bucket are different, and all mail is as it was. -/
structure Undisturbed (b : Bucket) (s : Roster) (b' : Bucket) (s' : Roster) : Prop where
  bucket : b' = { b with users := b'.users, rooms := b'.rooms }
  mailbox : ∀ c, s'.mailbox? c = s.mailbox? c

namespace Undisturbed

theorem refl (b : Bucket) (s : Roster) : b.Undisturbed s b s :=
  ⟨rfl, fun _ => rfl⟩

theorem trans (h : b.Undisturbed s b' s') (h' : b'.Undisturbed s' b'' s'') :
    b.Undisturbed s b'' s'' := by
  constructor
  · rw [h'.bucket, h.bucket]
  · intro c
    rw [h'.mailbox, h.mailbox]

theorem of_carried (hb : b' = { b with rooms := b'.rooms })
    (hs : ∀ c, s'.carried? c = s.carried? c) : b.Undisturbed s b' s' := by
  constructor
  · rw [hb]
  · exact fun c => Roster.mailbox?_of_carried? (hs c)

theorem put {user : UserId} {room : RoomId} {c : ChannelRef}
    (h : b.put s user room c = .ok (b', s')) : b.Undisturbed s b' s' := by
  unfold Bucket.put at h
  split at h
  next =>
    cases h
    exact refl b s
  next channel _ =>
    split at h
    next => cases h
    next =>
      split at h
      next => cases h
      next =>
        split at h
        next => cases h
        next b₁ s₁ hentered =>
          cases h
          have hrooms : b.Undisturbed s b₁ s₁ := by
            split at hentered
            next => exact of_carried (enterRoom_carried hentered).1 (enterRoom_carried hentered).2
            next =>
              cases hentered
              exact refl b s
          have hmailbox : ∀ ch : Channel, (ch.setJoined user room).mailbox = ch.mailbox :=
            fun _ => rfl
          exact hrooms.trans ⟨rfl, Roster.mailbox?_modifyChannel hmailbox s₁ c⟩

theorem remove (b : Bucket) (s : Roster) (c : ChannelRef) :
    b.Undisturbed s (b.remove s c).2.1 (b.remove s c).2.2 := by
  unfold Bucket.remove
  split
  next => exact refl b s
  next channel _ =>
    split
    next =>
      have hunregister : b.Undisturbed s (b.unregister channel.user c) s := by
        unfold unregister
        split
        next => exact ⟨rfl, fun _ => rfl⟩
        next => exact refl b s
      have hleave := (b.unregister channel.user c).leaveRoom_carried s c
      exact hunregister.trans (of_carried hleave.1 hleave.2)
    next => exact refl b s

/-- Registrations, removals and the beginning of a teardown touch neither queues nor mail. -/
theorem act (b : Bucket) (s : Roster) (op : Op) :
    b.Undisturbed s (b.act s op).2.1 (b.act s op).2.2 := by
  cases op with
  | put user room c =>
    cases hput : b.put s user room c with
    | error e =>
      simp only [Bucket.act, hput]
      exact refl b s
    | ok bs =>
      simp only [Bucket.act, hput]
      exact put hput
  | remove c => exact remove b s c
  | beginClose c =>
    refine ⟨rfl, ?_⟩
    change ∀ c', (s.beginClose c).2.mailbox? c' = s.mailbox? c'
    have hmailbox : ∀ ch : Channel, ({ ch with isClosing := true } : Channel).mailbox =
        ch.mailbox := fun _ => rfl
    rw [Roster.beginClose_snd]
    exact Roster.mailbox?_modifyChannel hmailbox s c

end Undisturbed

end Bucket

/-! ## Crews -/

/-- What a worker is about. -/
inductive Hand where
  /-- It waits for a job. -/
  | empty
  /-- It has taken a job. -/
  | holding (job : Job)
  /-- It has looked up the room of a job. -/
  | found (r : RoomRef) (msg : Msg)
  /-- It hands a message out, and these members are left. -/
  | passing (cs : List ChannelRef) (msg : Msg)
  deriving DecidableEq, Repr

/-- The message that a worker is about to hand out. -/
def Hand.msg? : Hand → Option Msg
  | empty => none
  | holding job => some job.msg
  | found _ msg | passing _ msg => some msg

/-- A bucket with what each of its workers is about. -/
structure Crew where
  bucket : Bucket
  roster : Roster
  hand : Nat → Hand

namespace Crew

variable {x : Crew} {k : Nat} {job : Job} {rest : List Job} {c : ChannelRef} {cs : List ChannelRef}
  {msg : Msg} {r : RoomRef}

/-- A bucket that was just made. Its workers wait. -/
def new (id : Nat) (config : BucketConfig) (s : Roster) : Crew :=
  ⟨.new id config, s, fun _ => .empty⟩

/-- Let a worker take its next step. A message for a room that is not there is lost. -/
def work (x : Crew) (k : Nat) : Crew :=
  match x.hand k with
  | .empty =>
    match x.bucket.queue k with
    | [] => x
    | job :: rest => { x with
        bucket := { x.bucket with queues := x.bucket.queues.set k rest }
        hand := Function.update x.hand k (.holding job) }
  | .holding job => { x with
      hand := Function.update x.hand k
        ((x.bucket.lookupRoom job.room).elim .empty fun r => .found r job.msg) }
  | .found r msg =>
    { x with hand := Function.update x.hand k (.passing (x.roster.members r) msg) }
  | .passing [] _ => { x with hand := Function.update x.hand k .empty }
  | .passing (c :: cs) msg => { x with
      roster := (x.roster.push c msg).2
      hand := Function.update x.hand k (.passing cs msg) }

/-- Whatever happens to a bucket. The writers of the channels take their mail in between, or go
away. -/
inductive Step where
  | op (op : Bucket.Op)
  | call (job : Job)
  | work (worker : Nat)
  | take (c : ChannelRef) (n : Nat)
  | close (c : ChannelRef)
  deriving DecidableEq

def step (x : Crew) : Step → Crew
  | .op op => { x with
      bucket := (x.bucket.act x.roster op).2.1
      roster := (x.bucket.act x.roster op).2.2 }
  | .call job => { x with bucket := (x.bucket.broadcast job.room job.msg).2 }
  | .work k => x.work k
  | .take c n => { x with roster := (x.roster.takeMail c n).2 }
  | .close c => { x with roster := x.roster.closeMailbox c }

/-- The crew after a list of steps. -/
def after (x : Crew) (steps : List Step) : Crew :=
  steps.foldl step x

/-- Let a worker take so many steps without interruption. -/
def works (x : Crew) (k n : Nat) : Crew :=
  x.after (List.replicate n (.work k))

/-! ## Working without interruption -/

theorem works_zero (x : Crew) (k : Nat) : x.works k 0 = x :=
  rfl

theorem works_succ (x : Crew) (k n : Nat) : x.works k (n + 1) = (x.work k).works k n :=
  rfl

theorem works_add (x : Crew) (k m n : Nat) : x.works k (m + n) = (x.works k m).works k n := by
  rw [works, List.replicate_add, after, List.foldl_append]
  rfl

theorem work_empty_nil (h : x.hand k = .empty) (hq : x.bucket.queue k = []) : x.work k = x := by
  simp only [work, h, hq]

theorem work_empty_cons (h : x.hand k = .empty) (hq : x.bucket.queue k = job :: rest) :
    x.work k = { x with
      bucket := { x.bucket with queues := x.bucket.queues.set k rest }
      hand := Function.update x.hand k (.holding job) } := by
  simp only [work, h, hq]

theorem work_holding (h : x.hand k = .holding job) : x.work k = { x with
    hand := Function.update x.hand k
      ((x.bucket.lookupRoom job.room).elim .empty fun r => .found r job.msg) } := by
  rw [work, h]

theorem work_found (h : x.hand k = .found r msg) : x.work k =
    { x with hand := Function.update x.hand k (.passing (x.roster.members r) msg) } := by
  rw [work, h]

theorem work_passing_nil (h : x.hand k = .passing [] msg) :
    x.work k = { x with hand := Function.update x.hand k .empty } := by
  rw [work, h]

theorem work_passing_cons (h : x.hand k = .passing (c :: cs) msg) : x.work k = { x with
    roster := (x.roster.push c msg).2
    hand := Function.update x.hand k (.passing cs msg) } := by
  rw [work, h]

/-- A worker that offers nothing changes no channel. -/
theorem roster_work (h : ∀ c cs msg, x.hand k ≠ .passing (c :: cs) msg) :
    (x.work k).roster = x.roster := by
  unfold work
  split
  next => split <;> rfl
  next => rfl
  next => rfl
  next => rfl
  next c cs msg hh => exact absurd hh (h c cs msg)

/-- A worker that hands a message out offers it to all members that are left, and then waits. -/
theorem exists_works_passing (h : x.hand k = .passing cs msg) :
    ∃ n, x.works k n = { x with
      roster := (x.roster.pushAll msg cs).2
      hand := Function.update x.hand k .empty } := by
  induction cs generalizing x with
  | nil =>
    refine ⟨1, ?_⟩
    rw [works_succ, works_zero, work_passing_nil h]
    rfl
  | cons c cs ih =>
    have hnext : (x.work k).hand k = .passing cs msg := by
      rw [work_passing_cons h]
      exact Function.update_self ..
    obtain ⟨n, hn⟩ := ih hnext
    refine ⟨n + 1, ?_⟩
    rw [works_succ, hn, work_passing_cons h, Function.update_idem]
    rfl

/-- A worker that has looked up a room offers the message to all members of the room. -/
theorem exists_works_found (h : x.hand k = .found r msg) :
    ∃ n, x.works k n = { x with
      roster := (x.roster.broadcast r msg).2
      hand := Function.update x.hand k .empty } := by
  have henter := work_found h
  have hpassing : (x.work k).hand k = .passing (x.roster.members r) msg := by
    rw [henter]
    exact Function.update_self ..
  obtain ⟨n, hn⟩ := exists_works_passing hpassing
  have hbroadcast : (x.roster.broadcast r msg).2 =
      (x.roster.pushAll msg (x.roster.members r)).2 := by
    rw [Roster.broadcast, Roster.members]
    cases x.roster.room? r with
    | none => rfl
    | some room => rfl
  refine ⟨n + 1, ?_⟩
  rw [works_succ, hn, henter, hbroadcast, Function.update_idem]

/-- A worker that waits and has a job performs it, and then waits again. -/
theorem exists_works_perform (h : x.hand k = .empty) (hq : x.bucket.queue k = job :: rest) :
    ∃ n, x.works k n = { x with
      bucket := { x.bucket with queues := x.bucket.queues.set k rest }
      roster := x.bucket.perform x.roster job } := by
  have hwaits : Function.update x.hand k .empty = x.hand := by
    rw [← h]
    exact Function.update_eq_self k x.hand
  have htake := work_empty_cons h hq
  have hholding : (x.work k).hand k = .holding job := by
    rw [htake]
    exact Function.update_self ..
  have hlookup := work_holding hholding
  have hsame : (x.work k).bucket.lookupRoom job.room = x.bucket.lookupRoom job.room := by
    rw [htake]
    rfl
  rw [hsame] at hlookup
  cases hr : x.bucket.lookupRoom job.room with
  | none =>
    refine ⟨2, ?_⟩
    rw [works_succ, works_succ, works_zero, hlookup, htake, hr, Option.elim_none,
      Function.update_idem, hwaits, Bucket.perform, hr]
  | some r =>
    rw [hr, Option.elim_some] at hlookup
    have hfound : ((x.work k).work k).hand k = .found r job.msg := by
      rw [hlookup]
      exact Function.update_self ..
    obtain ⟨n, hn⟩ := exists_works_found hfound
    refine ⟨n + 2, ?_⟩
    rw [works_succ, works_succ, hn, hlookup, htake, Bucket.perform, hr]
    simp only [Function.update_idem, hwaits]

/-- A worker that waits, and then works until its queue is empty without interruption, runs. -/
theorem exists_works_eq_runWorker (h : x.hand k = .empty) :
    ∃ n, x.works k n = { x with
      bucket := (x.bucket.runWorker x.roster k).1
      roster := (x.bucket.runWorker x.roster k).2 } := by
  generalize hq : x.bucket.queue k = jobs
  induction jobs generalizing x with
  | nil =>
    refine ⟨0, ?_⟩
    have hset : x.bucket.queues.set k [] = x.bucket.queues := by
      rw [← hq]
      exact x.bucket.set_queue k
    rw [works_zero, Bucket.runWorker_eq, hq, hset]
    rfl
  | cons job rest ih =>
    obtain ⟨m, hm⟩ := exists_works_perform h hq
    have hwaits : (x.works k m).hand k = .empty := by
      rw [hm]
      exact h
    have hrest : (x.works k m).bucket.queue k = rest := by
      rw [hm, Bucket.queue_set (Bucket.lt_of_queue hq), if_pos rfl]
    obtain ⟨n, hn⟩ := ih hwaits hrest
    refine ⟨m + n, ?_⟩
    rw [works_add, hn, Bucket.runWorker_eq, Bucket.runWorker_eq, hrest, hq, hm]
    dsimp only
    rw [List.set_set]
    rfl

end Crew

end ChatRelay
