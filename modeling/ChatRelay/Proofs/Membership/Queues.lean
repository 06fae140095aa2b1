import ChatRelay.Proofs.Membership.Coherence

/-!
# The queues of the broadcast workers

Queueing a message for a room appends one job to the queue of the worker whose turn it is, in every
bucket, unless that queue is full. Working takes the oldest job off a queue and offers its message
to the members that its room has at this moment: this is the smallest step of a worker. A worker
that empties its queue, and the workers of a hub that all do, only take such steps.
-/

namespace ChatRelay

namespace Bucket

variable {b : Bucket} {s : Roster}

/-- The jobs of a worker, oldest first. -/
def queue (b : Bucket) (worker : Nat) : List Job :=
  b.queues.getD worker []

/-- The worker whose turn it is. -/
def nextWorker (b : Bucket) : Nat :=
  b.turn.toNat % b.workerCount

/-- The worker whose turn it is has no room for another job. -/
def isFull (b : Bucket) : Prop :=
  b.queueBound ≤ (b.queue b.nextWorker).length

instance (b : Bucket) : Decidable b.isFull :=
  inferInstanceAs (Decidable (_ ≤ _))

/-- Another job goes to this worker. -/
def accepts (b : Bucket) (worker : Nat) : Bool :=
  worker == b.nextWorker && !decide b.isFull

theorem nextWorker_lt (hb : b.queues ≠ []) : b.nextWorker < b.queues.length :=
  Nat.mod_lt _ (List.length_pos_iff.mpr hb)

/-- A queued message changes the turn and at most one queue. -/
theorem broadcast_eq (b : Bucket) (room : RoomId) (msg : Msg) :
    b.broadcast room msg = if b.isFull then (none, { b with turn := b.turn + 1 })
      else (some b.nextWorker, { b with
        turn := b.turn + 1
        queues := b.queues.modify b.nextWorker (· ++ [⟨room, msg⟩]) }) := by
  change (if (b.queue b.nextWorker).length < b.queueBound then _ else _) = _
  by_cases hf : b.isFull
  · rw [if_pos hf, if_neg (Nat.not_lt.mpr hf)]
  · rw [if_neg hf, if_pos (Nat.lt_of_not_le hf)]
    rfl

theorem queue_broadcast (hb : b.queues ≠ []) (room : RoomId) (msg : Msg) (worker : Nat) :
    (b.broadcast room msg).2.queue worker =
      b.queue worker ++ if b.accepts worker then [⟨room, msg⟩] else [] := by
  rw [broadcast_eq, accepts]
  by_cases hf : b.isFull
  · simp [hf, queue]
  · simp only [queue, if_neg hf, List.getD_eq_getElem?_getD, List.getElem?_modify]
    by_cases hw : b.nextWorker = worker
    · subst hw
      rw [List.getElem?_eq_getElem (nextWorker_lt hb)]
      simp [hf]
    · simp [hw, Ne.symm hw]

theorem workerCount_broadcast (b : Bucket) (room : RoomId) (msg : Msg) :
    (b.broadcast room msg).2.workerCount = b.workerCount := by
  rw [broadcast_eq]
  split
  next => rfl
  next => exact List.length_modify ..

theorem turn_broadcast (b : Bucket) (room : RoomId) (msg : Msg) :
    (b.broadcast room msg).2.turn = b.turn + 1 := by
  rw [broadcast_eq]
  split <;> rfl

theorem queue_new (id : Nat) (config : BucketConfig) (worker : Nat) :
    (new id config).queue worker = [] := by
  change (List.replicate (max config.routineAmount 1) ([] : List Job)).getD worker [] = []
  rw [List.getD_eq_getElem?_getD, List.getElem?_replicate]
  split <;> rfl

theorem lt_of_queue {worker : Nat} {job : Job} {rest : List Job}
    (hq : b.queue worker = job :: rest) : worker < b.queues.length := by
  by_contra hl
  rw [queue, List.getD_eq_getElem?_getD, List.getElem?_eq_none (Nat.le_of_not_lt hl)] at hq
  cases hq

theorem queue_set {worker : Nat} (hw : worker < b.queues.length) (jobs : List Job)
    (worker' : Nat) : ({ b with queues := b.queues.set worker jobs } : Bucket).queue worker' =
      if worker' = worker then jobs else b.queue worker' := by
  rw [queue, queue, List.getD_eq_getElem?_getD, List.getD_eq_getElem?_getD, List.getElem?_set]
  by_cases he : worker' = worker
  · subst he
    simp [hw]
  · simp [he, Ne.symm he]

theorem set_queue (b : Bucket) (worker : Nat) :
    b.queues.set worker (b.queue worker) = b.queues := by
  refine List.ext_getElem? fun k => ?_
  rw [List.getElem?_set]
  split
  next he =>
    subst he
    split
    next hw =>
      rw [queue, List.getD_eq_getElem?_getD, List.getElem?_eq_getElem hw, Option.getD_some]
    next hw => rw [List.getElem?_eq_none (Nat.le_of_not_lt hw)]
  next => rfl

theorem runWorker_eq (b : Bucket) (s : Roster) (worker : Nat) : b.runWorker s worker =
    ({ b with queues := b.queues.set worker [] }, (b.queue worker).foldl b.perform s) :=
  rfl

/-- Performing a job offers its message to the members that its room has now. -/
theorem perform_eq (hs : s.Linked) (b : Bucket) (job : Job) :
    b.perform s job = s.mapMail (Roster.offerTo (b.membersOf s job.room) job.msg) := by
  unfold perform membersOf
  cases hr : b.lookupRoom job.room with
  | none => exact (Roster.mapMail_id s).symm
  | some r => exact Roster.broadcast_snd (hs.nodup_members r) job.msg

end Bucket

namespace Hub

variable {h : Hub} {b : Bucket} {w : WorkerRef}

/-- The jobs of a worker, oldest first. -/
def queue (h : Hub) (w : WorkerRef) : List Job :=
  (h.buckets[w.bucket]?).elim [] fun b => b.queue w.worker

theorem queue_of_bucket (hb : h.buckets[w.bucket]? = some b) : h.queue w = b.queue w.worker := by
  rw [queue, hb, Option.elim_some]

/-- Let a worker perform its oldest job. -/
def work (h : Hub) (w : WorkerRef) : Hub :=
  match h.buckets[w.bucket]? with
  | none => h
  | some b =>
    match b.queue w.worker with
    | [] => h
    | job :: rest => { h with
        roster := b.perform h.roster job
        buckets := h.buckets.set w.bucket { b with queues := b.queues.set w.worker rest }
        awake := if rest.isEmpty then h.awake.erase w else h.awake }

/-! ## Queueing -/

theorem broadcast_buckets (h : Hub) (i : Nat) (room : RoomId) (msg : Msg) :
    (h.broadcast i room msg).2.buckets =
      h.buckets.modify i fun b => (b.broadcast room msg).2 := by
  unfold broadcast
  split
  next hb =>
    rw [List.modify_eq_self]
    exact List.getElem?_eq_none_iff.mp hb
  next b hb =>
    have hset : h.buckets.set i (b.broadcast room msg).2 =
        h.buckets.modify i fun b => (b.broadcast room msg).2 := by
      obtain ⟨hi, rfl⟩ := List.getElem?_eq_some_iff.mp hb
      exact (List.modify_eq_set_get (fun b => (b.broadcast room msg).2) hi).symm
    rw [← hset]
    dsimp only
    split
    next => rfl
    next => split <;> rfl

/-- The worker of a bucket that another job wakes, if there is one. -/
def woken (h : Hub) (i : Nat) : List WorkerRef :=
  (h.buckets[i]?).elim [] fun b =>
    if b.isFull ∨ ⟨i, b.nextWorker⟩ ∈ h.awake then [] else [⟨i, b.nextWorker⟩]

theorem bucket_of_mem_woken {i : Nat} (hw : w ∈ h.woken i) : w.bucket = i := by
  unfold woken at hw
  cases hb : h.buckets[i]? with
  | none => simp [hb] at hw
  | some b =>
    rw [hb, Option.elim_some] at hw
    split at hw
    next => cases hw
    next =>
      rw [List.mem_singleton] at hw
      rw [hw]

theorem broadcast_awake (h : Hub) (i : Nat) (room : RoomId) (msg : Msg) :
    (h.broadcast i room msg).2.awake = h.awake ++ h.woken i := by
  unfold broadcast woken
  cases h.buckets[i]? with
  | none => simp
  | some b =>
    dsimp only [Option.elim_some]
    rw [Bucket.broadcast_eq]
    by_cases hf : b.isFull
    · simp [hf]
    · rw [if_neg hf]
      by_cases hw : ⟨i, b.nextWorker⟩ ∈ h.awake
      · simp [hw]
      · simp [hw, hf]

theorem broadcast_roster (h : Hub) (i : Nat) (room : RoomId) (msg : Msg) :
    (h.broadcast i room msg).2.roster = h.roster := by
  unfold broadcast
  split
  next => rfl
  next =>
    dsimp only
    split
    next => rfl
    next => split <;> rfl

/-- A hub after its first `n` buckets have been offered a job. -/
theorem broadcast_upTo (h : Hub) (room : RoomId) (msg : Msg) (n : Nat) :
    let h' := (List.range n).foldl (fun h i => (h.broadcast i room msg).2) h
    h'.roster = h.roster ∧ h'.awake = h.awake ++ (List.range n).flatMap h.woken ∧
      ∀ i, h'.buckets[i]? =
        if i < n then (h.buckets[i]?).map fun b => (b.broadcast room msg).2 else h.buckets[i]? := by
  induction n with
  | zero => simp
  | succ n ih =>
    obtain ⟨hroster, hawake, hbuckets⟩ := ih
    have hwoken : ((List.range n).foldl (fun h i => (h.broadcast i room msg).2) h).woken n =
        h.woken n := by
      unfold woken
      rw [hbuckets, if_neg (Nat.lt_irrefl n), hawake]
      cases h.buckets[n]? with
      | none => rfl
      | some b =>
        have hmem : (⟨n, b.nextWorker⟩ : WorkerRef) ∈
            h.awake ++ (List.range n).flatMap h.woken ↔ ⟨n, b.nextWorker⟩ ∈ h.awake := by
          rw [List.mem_append, or_iff_left]
          intro hw
          obtain ⟨i, hi, hw⟩ := List.mem_flatMap.mp hw
          have hlt : i < n := List.mem_range.mp hi
          have hni : n = i := bucket_of_mem_woken hw
          omega
        simp only [Option.elim_some, hmem]
    simp only [List.range_succ, List.foldl_append, List.foldl_cons, List.foldl_nil,
      List.flatMap_append, List.flatMap_singleton]
    refine ⟨?_, ?_, fun i => ?_⟩
    · rw [broadcast_roster, hroster]
    · rw [broadcast_awake, hawake, hwoken, List.append_assoc]
    · rw [broadcast_buckets, List.getElem?_modify, hbuckets]
      rcases Nat.lt_trichotomy i n with hi | rfl | hi
      · simp [hi, Nat.ne_of_gt hi, Nat.lt_succ_of_lt hi]
      · simp
      · have hle : ¬ i < n + 1 := by omega
        simp [Nat.ne_of_lt hi, Nat.lt_asymm hi, hle]

theorem broadcastAll_roster (h : Hub) (room : RoomId) (msg : Msg) :
    (h.broadcastAll room msg).roster = h.roster :=
  (h.broadcast_upTo room msg _).1

theorem broadcastAll_awake (h : Hub) (room : RoomId) (msg : Msg) :
    (h.broadcastAll room msg).awake =
      h.awake ++ (List.range h.buckets.length).flatMap h.woken :=
  (h.broadcast_upTo room msg _).2.1

theorem broadcastAll_bucket (h : Hub) (room : RoomId) (msg : Msg) (i : Nat) :
    (h.broadcastAll room msg).buckets[i]? =
      (h.buckets[i]?).map fun b => (b.broadcast room msg).2 := by
  refine ((h.broadcast_upTo room msg h.buckets.length).2.2 i).trans ?_
  split
  next => rfl
  next hi =>
    rw [List.getElem?_eq_none (Nat.le_of_not_lt hi)]
    rfl

theorem roomAt_broadcastAll (h : Hub) (room : RoomId) (msg : Msg) (i : Nat) (id : RoomId) :
    (h.broadcastAll room msg).roomAt i id = h.roomAt i id := by
  rw [roomAt, broadcastAll_bucket, roomAt]
  cases h.buckets[i]? with
  | none => rfl
  | some b =>
    rw [Option.map_some, Bucket.broadcast_eq]
    split <;> rfl

theorem userAt_broadcastAll (h : Hub) (room : RoomId) (msg : Msg) (i : Nat) (user : UserId) :
    (h.broadcastAll room msg).userAt i user = h.userAt i user := by
  rw [userAt, broadcastAll_bucket, userAt]
  cases h.buckets[i]? with
  | none => rfl
  | some b =>
    rw [Option.map_some, Bucket.broadcast_eq]
    split <;> rfl

theorem length_buckets_broadcastAll (h : Hub) (room : RoomId) (msg : Msg) :
    (h.broadcastAll room msg).buckets.length = h.buckets.length := by
  have hmap : (h.broadcastAll room msg).buckets =
      h.buckets.map fun b => (b.broadcast room msg).2 :=
    List.ext_getElem? fun i => by rw [broadcastAll_bucket, List.getElem?_map]
  rw [hmap, List.length_map]

/-- Queueing touches neither indexes nor channels. -/
theorem Sound.broadcastAll (hh : h.Sound) (room : RoomId) (msg : Msg) :
    (h.broadcastAll room msg).Sound := by
  have hroster : (h.broadcastAll room msg).roster = h.roster.mapMail fun _ m => m := by
    rw [broadcastAll_roster, Roster.mapMail_id]
  exact hh.congr (fun _ m => m) hroster (h.roomAt_broadcastAll room msg)
    (h.userAt_broadcastAll room msg) (h.length_buckets_broadcastAll room msg)

/-! ## Staffed hubs -/

/-- Every bucket has a worker, and awake are exactly the workers that have jobs. -/
structure Staffed (h : Hub) : Prop where
  workers : ∀ (i : Nat) (b : Bucket), h.buckets[i]? = some b → b.queues ≠ []
  nodup : h.awake.Nodup
  mem_awake : ∀ w, w ∈ h.awake ↔ h.queue w ≠ []

theorem queue_new (config : BucketConfig) (w : WorkerRef) : (new config).queue w = [] := by
  cases hb : (new config).buckets[w.bucket]? with
  | none => rw [queue, hb, Option.elim_none]
  | some b =>
    rw [queue_of_bucket hb, eq_new_of_bucket hb, Bucket.queue_new]

theorem staffed_new (config : BucketConfig) : (new config).Staffed where
  workers i b hb := by
    rw [eq_new_of_bucket hb, ne_eq, ← List.length_eq_zero_iff]
    change ¬ (List.replicate (max config.routineAmount 1) ([] : List Job)).length = 0
    rw [List.length_replicate]
    omega
  nodup := List.nodup_nil
  mem_awake w := by
    rw [queue_new]
    constructor
    · intro hw
      cases hw
    · intro hne
      exact absurd rfl hne

/-- Another job goes to this worker. -/
def accepts (h : Hub) (w : WorkerRef) : Bool :=
  (h.buckets[w.bucket]?).any fun b => b.accepts w.worker

theorem Staffed.queue_broadcastAll (hh : h.Staffed) (room : RoomId) (msg : Msg) (w : WorkerRef) :
    (h.broadcastAll room msg).queue w =
      h.queue w ++ if h.accepts w then [⟨room, msg⟩] else [] := by
  unfold queue accepts
  rw [broadcastAll_bucket]
  cases hb : h.buckets[w.bucket]? with
  | none => rfl
  | some b => exact Bucket.queue_broadcast (hh.workers _ b hb) room msg w.worker

theorem mem_flatMap_woken (h : Hub) (w : WorkerRef) :
    w ∈ (List.range h.buckets.length).flatMap h.woken ↔ h.accepts w = true ∧ w ∉ h.awake := by
  have hmem : w ∈ h.woken w.bucket ↔ h.accepts w = true ∧ w ∉ h.awake := by
    unfold woken accepts
    cases h.buckets[w.bucket]? with
    | none => simp
    | some b =>
      obtain ⟨i, k⟩ := w
      by_cases hk : k = b.nextWorker
      · subst hk
        simp [Bucket.accepts]
      · simp [Bucket.accepts, hk]
  rw [← hmem, List.mem_flatMap]
  constructor
  · rintro ⟨i, -, hw⟩
    have hi := bucket_of_mem_woken hw
    rw [hi]
    exact hw
  · intro hw
    refine ⟨w.bucket, List.mem_range.mpr ?_, hw⟩
    by_contra hi
    rw [woken, List.getElem?_eq_none (Nat.le_of_not_lt hi)] at hw
    cases hw

theorem nodup_flatMap_woken (h : Hub) (n : Nat) : ((List.range n).flatMap h.woken).Nodup := by
  induction n with
  | zero => exact List.nodup_nil
  | succ n ih =>
    rw [List.range_succ, List.flatMap_append, List.flatMap_singleton, List.nodup_append]
    refine ⟨ih, ?_, ?_⟩
    · unfold woken
      cases h.buckets[n]? with
      | none => exact List.nodup_nil
      | some b =>
        rw [Option.elim_some]
        split
        next => exact List.nodup_nil
        next => exact List.nodup_singleton _
    · rintro w hw w' hw' rfl
      obtain ⟨i, hi, hwi⟩ := List.mem_flatMap.mp hw
      have hin := List.mem_range.mp hi
      rw [← bucket_of_mem_woken hwi, bucket_of_mem_woken hw'] at hin
      exact Nat.lt_irrefl n hin

theorem Staffed.broadcastAll (hh : h.Staffed) (room : RoomId) (msg : Msg) :
    (h.broadcastAll room msg).Staffed where
  workers i b hb := by
    rw [broadcastAll_bucket] at hb
    obtain ⟨b', hb', rfl⟩ := Option.map_eq_some_iff.mp hb
    have hne := hh.workers i b' hb'
    rw [Bucket.broadcast_eq]
    split
    next => exact hne
    next =>
      rw [ne_eq, ← List.length_eq_zero_iff, List.length_modify, List.length_eq_zero_iff]
      exact hne
  nodup := by
    rw [broadcastAll_awake, List.nodup_append]
    refine ⟨hh.nodup, h.nodup_flatMap_woken _, ?_⟩
    rintro w hw w' hw' rfl
    exact ((h.mem_flatMap_woken w).mp hw').2 hw
  mem_awake w := by
    rw [hh.queue_broadcastAll, broadcastAll_awake, List.mem_append, mem_flatMap_woken,
      hh.mem_awake]
    cases h.accepts w <;> by_cases hq : h.queue w = [] <;> simp [hq]

/-- The queues, their bound, whose turn it is and who is awake are the same. -/
structure SameQueues (h h' : Hub) : Prop where
  awake : h'.awake = h.awake
  buckets : ∀ i : Nat, (h'.buckets[i]?).map (fun b => (b.queues, b.queueBound, b.turn)) =
    (h.buckets[i]?).map fun b => (b.queues, b.queueBound, b.turn)

namespace SameQueues

variable {h' : Hub}

theorem bucket (hq : SameQueues h h') {i : Nat} (hb : h.buckets[i]? = some b) :
    ∃ b' : Bucket, h'.buckets[i]? = some b' ∧
      b'.queues = b.queues ∧ b'.queueBound = b.queueBound ∧ b'.turn = b.turn := by
  have hi := hq.buckets i
  rw [hb, Option.map_some, Option.map_eq_some_iff] at hi
  obtain ⟨b', hb', he⟩ := hi
  simp only [Prod.mk.injEq] at he
  exact ⟨b', hb', he⟩

theorem symm (hq : SameQueues h h') : SameQueues h' h :=
  ⟨hq.awake.symm, fun i => (hq.buckets i).symm⟩

theorem queue (hq : SameQueues h h') (w : WorkerRef) : h'.queue w = h.queue w := by
  cases hb : h.buckets[w.bucket]? with
  | none =>
    have hi := hq.buckets w.bucket
    rw [hb, Option.map_none, Option.map_eq_none_iff] at hi
    rw [Hub.queue, Hub.queue, hb, hi]
  | some b =>
    obtain ⟨b', hb', he, -⟩ := hq.bucket hb
    rw [queue_of_bucket hb, queue_of_bucket hb', Bucket.queue, Bucket.queue, he]

theorem accepts (hq : SameQueues h h') (w : WorkerRef) : h'.accepts w = h.accepts w := by
  cases hb : h.buckets[w.bucket]? with
  | none =>
    have hi := hq.buckets w.bucket
    rw [hb, Option.map_none, Option.map_eq_none_iff] at hi
    rw [Hub.accepts, Hub.accepts, hb, hi]
  | some b =>
    obtain ⟨b', hb', he, hbound, hturn⟩ := hq.bucket hb
    have hnext : b'.nextWorker = b.nextWorker := by
      rw [Bucket.nextWorker, Bucket.nextWorker, Bucket.workerCount, Bucket.workerCount, he, hturn]
    have hfull : b'.isFull ↔ b.isFull := by
      rw [Bucket.isFull, Bucket.isFull, Bucket.queue, Bucket.queue, he, hbound, hnext]
    rw [Hub.accepts, Hub.accepts, hb, hb', Option.any_some, Option.any_some, Bucket.accepts,
      Bucket.accepts, hnext, decide_eq_decide.mpr hfull]

theorem staffed (hq : SameQueues h h') (hh : h.Staffed) : h'.Staffed where
  workers i b' hb' := by
    obtain ⟨b, hb, he, -⟩ := hq.symm.bucket hb'
    rw [← he]
    exact hh.workers i b hb
  nodup := by
    rw [hq.awake]
    exact hh.nodup
  mem_awake w := by
    rw [hq.awake, hq.queue]
    exact hh.mem_awake w

end SameQueues

/-! ## Working -/

variable {job : Job} {rest : List Job}

theorem work_of_nil (hq : h.queue w = []) : h.work w = h := by
  unfold queue at hq
  unfold work
  cases hb : h.buckets[w.bucket]? with
  | none => rfl
  | some b =>
    rw [hb, Option.elim_some] at hq
    simp only [hq]

theorem work_of_cons (hb : h.buckets[w.bucket]? = some b) (hq : h.queue w = job :: rest) :
    h.work w = { h with
      roster := b.perform h.roster job
      buckets := h.buckets.set w.bucket { b with queues := b.queues.set w.worker rest }
      awake := if rest.isEmpty then h.awake.erase w else h.awake } := by
  rw [queue_of_bucket hb] at hq
  unfold work
  simp only [hb, hq]

theorem exists_bucket_of_queue (hq : h.queue w = job :: rest) :
    ∃ b, h.buckets[w.bucket]? = some b := by
  cases hb : h.buckets[w.bucket]? with
  | none => simp [queue, hb] at hq
  | some b => exact ⟨b, rfl⟩

/-- Working offers the oldest job's message to each member that its room has now. -/
theorem Sound.work_roster (hh : h.Sound) (hq : h.queue w = job :: rest) :
    (h.work w).roster =
      h.roster.mapMail (Roster.offerTo (h.membersOf w.bucket job.room) job.msg) := by
  obtain ⟨b, hb⟩ := exists_bucket_of_queue hq
  rw [work_of_cons hb hq, membersOf_of_bucket hb]
  exact Bucket.perform_eq hh.coherent.linked b job

/-- All that working does to channels, it does to their mail. -/
theorem Sound.exists_mapMail_work (hh : h.Sound) (w : WorkerRef) :
    ∃ f, (h.work w).roster = h.roster.mapMail f := by
  cases hq : h.queue w with
  | nil =>
    refine ⟨fun _ m => m, ?_⟩
    rw [work_of_nil hq, Roster.mapMail_id]
  | cons job rest =>
    exact ⟨Roster.offerTo (h.membersOf w.bucket job.room) job.msg, hh.work_roster hq⟩

theorem work_bucket (hb : h.buckets[w.bucket]? = some b) (hq : h.queue w = job :: rest) (i : Nat) :
    (h.work w).buckets[i]? = if i = w.bucket
      then some { b with queues := b.queues.set w.worker rest } else h.buckets[i]? := by
  have hi := lt_of_bucket hb
  rw [work_of_cons hb hq, List.getElem?_set]
  by_cases he : i = w.bucket
  · simp [he, hi]
  · simp [he, Ne.symm he]

theorem roomAt_work (h : Hub) (w : WorkerRef) (i : Nat) (id : RoomId) :
    (h.work w).roomAt i id = h.roomAt i id := by
  cases hq : h.queue w with
  | nil => rw [work_of_nil hq]
  | cons job rest =>
    obtain ⟨b, hb⟩ := exists_bucket_of_queue hq
    rw [roomAt, work_bucket hb hq]
    split
    next he =>
      rw [he, roomAt_of_bucket hb]
      rfl
    next => rfl

theorem userAt_work (h : Hub) (w : WorkerRef) (i : Nat) (user : UserId) :
    (h.work w).userAt i user = h.userAt i user := by
  cases hq : h.queue w with
  | nil => rw [work_of_nil hq]
  | cons job rest =>
    obtain ⟨b, hb⟩ := exists_bucket_of_queue hq
    rw [userAt, work_bucket hb hq]
    split
    next he =>
      rw [he, userAt_of_bucket hb]
      rfl
    next => rfl

theorem length_buckets_work (h : Hub) (w : WorkerRef) :
    (h.work w).buckets.length = h.buckets.length := by
  cases hq : h.queue w with
  | nil => rw [work_of_nil hq]
  | cons job rest =>
    obtain ⟨b, hb⟩ := exists_bucket_of_queue hq
    rw [work_of_cons hb hq, List.length_set]

theorem Sound.work (hh : h.Sound) (w : WorkerRef) : (h.work w).Sound := by
  obtain ⟨f, hf⟩ := hh.exists_mapMail_work w
  exact hh.congr f hf (h.roomAt_work w) (h.userAt_work w) (h.length_buckets_work w)

theorem Sound.membersOf_work (hh : h.Sound) (w : WorkerRef) (i : Nat) (id : RoomId) :
    (h.work w).membersOf i id = h.membersOf i id := by
  obtain ⟨f, hf⟩ := hh.exists_mapMail_work w
  rw [membersOf, membersOf, roomAt_work, hf]
  rfl

/-- Working takes the oldest job off its own queue and leaves all others. -/
theorem queue_work (hq : h.queue w = job :: rest) (w' : WorkerRef) :
    (h.work w).queue w' = if w' = w then rest else h.queue w' := by
  obtain ⟨b, hb⟩ := exists_bucket_of_queue hq
  have hw : w.worker < b.queues.length :=
    Bucket.lt_of_queue ((queue_of_bucket hb).symm.trans hq)
  obtain ⟨i, k⟩ := w
  obtain ⟨i', k'⟩ := w'
  change h.buckets[i]? = some b at hb
  change k < b.queues.length at hw
  simp only [queue, work_bucket hb hq, WorkerRef.mk.injEq]
  by_cases hi : i' = i
  · subst hi
    simp only [if_true, true_and, Option.elim_some, Bucket.queue, List.getD_eq_getElem?_getD,
      List.getElem?_set, hb]
    by_cases hk : k' = k
    · subst hk
      simp [hw]
    · simp [hk, Ne.symm hk]
  · simp [hi]

theorem Staffed.work (hh : h.Staffed) (w : WorkerRef) : (h.work w).Staffed := by
  cases hq : h.queue w with
  | nil =>
    rw [work_of_nil hq]
    exact hh
  | cons job rest =>
    obtain ⟨b, hb⟩ := exists_bucket_of_queue hq
    have hawake : (h.work w).awake = if rest.isEmpty then h.awake.erase w else h.awake := by
      rw [work_of_cons hb hq]
    refine ⟨?_, ?_, ?_⟩
    · intro i b' hb'
      rw [work_bucket hb hq] at hb'
      split at hb'
      next =>
        obtain rfl := Option.some.inj hb'
        rw [ne_eq, ← List.length_eq_zero_iff, List.length_set, List.length_eq_zero_iff]
        exact hh.workers w.bucket b hb
      next => exact hh.workers i b' hb'
    · rw [hawake]
      split
      next => exact hh.nodup.erase w
      next => exact hh.nodup
    · intro w'
      rw [hawake, queue_work hq]
      by_cases hw : w' = w
      · subst hw
        rw [if_pos rfl]
        cases rest with
        | nil => simp [hh.nodup.mem_erase_iff]
        | cons => simp [hh.mem_awake, hq]
      · rw [if_neg hw, ← hh.mem_awake]
        split
        next => exact List.mem_erase_of_ne hw
        next => rfl

end Hub

end ChatRelay
