import ChatRelay.Proofs.History
import ChatRelay.Proofs.Membership.Queues
import Mathlib.Data.Int.CardIntervalMod

/-!
# How many messages the workers hold

The workers of a bucket are given messages in turn, whether they have room for another one or not.
From empty queues, wherever the turn begins, they fill up evenly: after `n` messages each worker
whose turn came `c` times holds `c` jobs, or as many as its queue takes. A worker is full when its
turn has come once for each place of its queue, and by then all others are, too (`Filled`). So no
message is dropped before all queues are full, and none is accepted afterwards
(`broadcast_capacity`).
-/

namespace ChatRelay.Bucket

variable {b : Bucket} {w q start n : Nat}

/-! ## Calls -/

/-- Queue a message, and tell the caller whether it was accepted. -/
def call (b : Bucket) (job : Job) : Delivery × Bucket :=
  let (worker, b) := b.broadcast job.room job.msg
  (if worker.isSome then .accepted else .dropped, b)

/-- What the callers are told who queue these messages one after another. -/
def answers (b : Bucket) (jobs : List Job) : List Delivery :=
  (History.answered call b jobs).map Prod.snd

/-- The bucket after these messages were queued. -/
def afterCalls (b : Bucket) (jobs : List Job) : Bucket :=
  History.reached call b jobs

theorem call_eq (b : Bucket) (job : Job) :
    b.call job = (if b.isFull then .dropped else .accepted, (b.broadcast job.room job.msg).2) := by
  unfold call
  rw [broadcast_eq]
  by_cases hf : b.isFull
  · simp only [if_pos hf, Option.isSome_none, Bool.false_eq_true, if_false]
  · simp only [if_neg hf, Option.isSome_some, if_true]

/-- The caller of a bucket of a hub is told the same. -/
theorem fst_broadcast_eq_call {h : Hub} {i : Nat} (hb : h.buckets[i]? = some b) (job : Job) :
    (h.broadcast i job.room job.msg).1 = (b.call job).1 := by
  rw [call_eq, Hub.broadcast, hb]
  dsimp only
  rw [broadcast_eq]
  by_cases hf : b.isFull
  · simp only [if_pos hf]
  · simp only [if_neg hf]

theorem workerCount_call (b : Bucket) (job : Job) : (b.call job).2.workerCount = b.workerCount :=
  b.workerCount_broadcast job.room job.msg

theorem workerCount_afterCalls (b : Bucket) (jobs : List Job) :
    (b.afterCalls jobs).workerCount = b.workerCount := by
  induction jobs generalizing b with
  | nil => rfl
  | cons job jobs ih => exact (ih (b.call job).2).trans (b.workerCount_call job)

/-! ## Filling up -/

/-- What `n` messages have made of a bucket whose queues were empty when the turn was `start`: each
queue holds a job for each time that it was its worker's turn, up to its bound. -/
structure Filled (w q start n : Nat) (b : Bucket) : Prop where
  workers : b.workerCount = w
  bound : b.queueBound = q
  turn : b.turn.toNat = start + n
  length : ∀ k, (b.queue k).length = min q (Nat.count (fun t => (start + t) % w = k) n)

/-- The worker whose turn it is was given a job every `w` messages. -/
theorem count_turns (hw : 0 < w) (start n : Nat) :
    Nat.count (fun t => (start + t) % w = (start + n) % w) n = n / w := by
  have hshift : ∀ t, (start + t) % w = (start + n) % w ↔ t ≡ n [MOD w] :=
    fun t => ⟨Nat.ModEq.add_left_cancel' start, Nat.ModEq.add_left start⟩
  simp only [hshift]
  rw [Nat.count_modEq_card n hw, if_neg (Nat.lt_irrefl _), Nat.add_zero]

namespace Filled

theorem nextWorker (h : Filled w q start n b) : b.nextWorker = (start + n) % w := by
  rw [Bucket.nextWorker, h.workers, h.turn]

/-- The queues are full all at once. -/
theorem isFull_iff (h : Filled w q start n b) (hw : 0 < w) : b.isFull ↔ w * q ≤ n := by
  rw [isFull, h.bound, h.length, h.nextWorker, count_turns hw, Nat.le_min,
    and_iff_right (Nat.le_refl q), Nat.le_div_iff_mul_le hw, Nat.mul_comm]

theorem call (h : Filled w q start n b) (hw : 0 < w) (hturn : start + n + 1 < 2 ^ 64) (job : Job) :
    Filled w q start (n + 1) (b.call job).2 := by
  have hne : b.queues ≠ [] := by
    intro hnil
    rw [← h.workers, workerCount, hnil] at hw
    exact Nat.lt_irrefl 0 hw
  refine ⟨(b.workerCount_call job).trans h.workers, ?_, ?_, ?_⟩
  · rw [call_eq, broadcast_eq, ← h.bound]
    split <;> rfl
  · have hnext : (b.call job).2.turn = b.turn + 1 := b.turn_broadcast job.room job.msg
    have hone : (1 : UInt64).toNat = 1 := rfl
    rw [hnext, UInt64.toNat_add, h.turn, hone, Nat.mod_eq_of_lt hturn, Nat.add_assoc]
  · intro k
    rw [call_eq, queue_broadcast hne, List.length_append, h.length, Nat.count_succ, accepts,
      h.nextWorker]
    by_cases hk : k = (start + n) % w
    · subst hk
      have hfull := h.isFull_iff hw
      rw [count_turns hw, beq_self_eq_true, Bool.true_and, if_pos rfl]
      by_cases hf : b.isFull
      · -- A full queue stays as it is, though it is its worker's turn.
        have hle : q ≤ n / w := by
          rw [Nat.le_div_iff_mul_le hw, Nat.mul_comm]
          exact hfull.mp hf
        simp only [hf, decide_true, Bool.not_true, Bool.false_eq_true, if_false, List.length_nil]
        omega
      · have hlt : n / w < q := by
          rw [Nat.div_lt_iff_lt_mul hw, Nat.mul_comm]
          exact Nat.lt_of_not_le (mt hfull.mpr hf)
        simp only [hf, decide_false, Bool.not_false, if_true, List.length_singleton]
        omega
    · have hother : (k == (start + n) % w) = false := beq_eq_false_iff_ne.mpr hk
      rw [hother, Bool.false_and, if_neg (Ne.symm hk)]
      rfl

end Filled

/-- The first `m` of `k` calls are accepted, and all others are not. -/
def firstAccepted (m k : Nat) : List Delivery :=
  List.replicate (min k m) .accepted ++ List.replicate (k - m) .dropped

theorem firstAccepted_succ (m k : Nat) : firstAccepted m (k + 1) =
    (if m = 0 then Delivery.dropped else .accepted) :: firstAccepted (m - 1) k := by
  cases m with
  | zero => simp [firstAccepted, List.replicate_succ]
  | succ m =>
    have hmin : min (k + 1) (m + 1) = min k m + 1 := by omega
    rw [if_neg (Nat.succ_ne_zero m), firstAccepted, hmin, Nat.add_sub_add_right,
      List.replicate_succ, List.cons_append]
    rfl

/-- What is left of the room in all queues is used up by the next calls. -/
theorem Filled.answers (h : Filled w q start n b) (hw : 0 < w) (jobs : List Job)
    (hturn : start + n + jobs.length < 2 ^ 64) :
    b.answers jobs = firstAccepted (w * q - n) jobs.length ∧
      Filled w q start (n + jobs.length) (b.afterCalls jobs) := by
  induction jobs generalizing b n with
  | nil => exact ⟨by simp [Bucket.answers, History.answered, firstAccepted], h⟩
  | cons job jobs ih =>
    rw [List.length_cons] at hturn ⊢
    have hcall : Filled w q start (n + 1) (b.call job).2 := h.call hw (by omega) job
    obtain ⟨hanswers, hafter⟩ := ih hcall (by omega)
    have hfirst : (b.call job).1 = if w * q - n = 0 then .dropped else .accepted := by
      have hfull := h.isFull_iff hw
      rw [call_eq]
      by_cases hf : b.isFull
      · rw [if_pos hf, if_pos (Nat.sub_eq_zero_of_le (hfull.mp hf))]
      · have hlt := Nat.lt_of_not_le (mt hfull.mpr hf)
        rw [if_neg hf, if_neg (Nat.sub_ne_zero_of_lt hlt)]
    constructor
    · calc b.answers (job :: jobs)
          = (b.call job).1 :: (b.call job).2.answers jobs := rfl
        _ = firstAccepted (w * q - n) (jobs.length + 1) := by
          rw [hfirst, hanswers, firstAccepted_succ, Nat.sub_add_eq]
    · rw [Nat.add_comm jobs.length 1, ← Nat.add_assoc]
      exact hafter

/-! ## Emptying -/

/-- Let these workers empty their queues, one after another. -/
def runWorkers (b : Bucket) (s : Roster) (workers : List Nat) : Bucket × Roster :=
  workers.foldl (fun bs worker => bs.1.runWorker bs.2 worker) (b, s)

theorem getElem?_foldl_set (queues : List (List Job)) (workers : List Nat) (k : Nat) :
    (workers.foldl (fun queues worker => queues.set worker []) queues)[k]? =
      if k ∈ workers then (queues[k]?).map fun _ => [] else queues[k]? := by
  induction workers generalizing queues with
  | nil => simp
  | cons worker workers ih =>
    rw [List.foldl_cons, ih, List.getElem?_set']
    by_cases hk : worker = k
    · subst hk
      cases queues[worker]? <;> simp
    · simp [hk, Ne.symm hk]

/-- When all workers have run, all queues are empty, and nothing else has changed. -/
theorem fst_runWorkers (b : Bucket) (s : Roster) {workers : List Nat}
    (hall : ∀ k < b.workerCount, k ∈ workers) :
    (b.runWorkers s workers).1 = { b with queues := List.replicate b.workerCount [] } := by
  have hsteps : ∀ (workers : List Nat) (b : Bucket) (s : Roster), (b.runWorkers s workers).1 =
      { b with queues := workers.foldl (fun queues worker => queues.set worker []) b.queues } := by
    intro workers
    induction workers with
    | nil => exact fun _ _ => rfl
    | cons worker workers ih => exact fun b s => ih _ _
  rw [hsteps]
  congr 1
  refine List.ext_getElem? fun k => ?_
  rw [getElem?_foldl_set, List.getElem?_replicate]
  by_cases hk : k < b.workerCount
  · rw [if_pos (hall k hk), if_pos hk, List.getElem?_eq_getElem hk, Option.map_some]
  · have hnone : b.queues[k]? = none := List.getElem?_eq_none (Nat.le_of_not_lt hk)
    rw [if_neg hk, hnone, Option.map_none, ite_self]

/-! ## Rounds -/

/-- Messages that are queued, and the workers that run afterwards, in this order. -/
structure Round where
  jobs : List Job
  workers : List Nat
  deriving DecidableEq, Repr

/-- Carry out a round. -/
def round (bs : Bucket × Roster) (r : Round) : Bucket × Roster :=
  (bs.1.afterCalls r.jobs).runWorkers bs.2 r.workers

/-- The number of messages of some rounds. -/
def callCount (rounds : List Round) : Nat :=
  (rounds.map fun r => r.jobs.length).sum

/-- A bucket with empty queues, with any users and rooms, whose turn is `start`. -/
def idle (id : Nat) (config : BucketConfig) (users : Table UserId ChannelRef)
    (rooms : Table RoomId RoomRef) (start : Nat) : Bucket :=
  { new id config with users, rooms, turn := UInt64.ofNat start }

section Rounds

variable (id : Nat) (config : BucketConfig) (users : Table UserId ChannelRef)
  (rooms : Table RoomId RoomRef)

theorem workerCount_idle (start : Nat) :
    (idle id config users rooms start).workerCount = max config.routineAmount 1 :=
  List.length_replicate

theorem filled_idle (hstart : start < 2 ^ 64) :
    Filled (max config.routineAmount 1) (max config.routineSize 1) start 0
      (idle id config users rooms start) := by
  refine ⟨workerCount_idle .., rfl, UInt64.toNat_ofNat_of_lt hstart, fun k => ?_⟩
  have hempty : (idle id config users rooms start).queue k = [] := queue_new id config k
  rw [hempty, Nat.count_zero, Nat.min_zero]
  rfl

/-- Queueing changes queues and the turn only. -/
theorem exists_afterCalls_eq (b : Bucket) (jobs : List Job) :
    ∃ queues turn, b.afterCalls jobs = { b with queues, turn } := by
  induction jobs generalizing b with
  | nil => exact ⟨b.queues, b.turn, rfl⟩
  | cons job jobs ih =>
    have hcall : ∃ queues turn, (b.call job).2 = { b with queues, turn } := by
      rw [call_eq, broadcast_eq]
      split
      next => exact ⟨b.queues, b.turn + 1, rfl⟩
      next => exact ⟨_, b.turn + 1, rfl⟩
    obtain ⟨queues, turn, hcall⟩ := hcall
    obtain ⟨queues', turn', hrest⟩ := ih (b.call job).2
    refine ⟨queues', turn', hrest.trans ?_⟩
    rw [hcall]

/-- After a round in which all workers have run the bucket is idle again, and the turn has passed on
by the messages of the round, those that were dropped included. -/
theorem round_idle (s : Roster) {r : Round}
    (hall : ∀ k < max config.routineAmount 1, k ∈ r.workers)
    (hturn : start + r.jobs.length < 2 ^ 64) :
    (round (idle id config users rooms start, s) r).1 =
      idle id config users rooms (start + r.jobs.length) := by
  have hstart : start < 2 ^ 64 := Nat.lt_of_le_of_lt (Nat.le_add_right _ _) hturn
  have hpos : 0 < max config.routineAmount 1 :=
    Nat.lt_of_lt_of_le Nat.one_pos (Nat.le_max_right _ _)
  obtain ⟨-, hafter⟩ := (filled_idle id config users rooms hstart).answers hpos r.jobs hturn
  rw [Nat.zero_add] at hafter
  obtain ⟨queues, turn, heq⟩ := exists_afterCalls_eq (idle id config users rooms start) r.jobs
  have hturn' : turn = UInt64.ofNat (start + r.jobs.length) := by
    have hafterTurn := hafter.turn
    rw [heq] at hafterTurn
    rw [← UInt64.toNat_inj, UInt64.toNat_ofNat', Nat.mod_eq_of_lt hturn]
    exact hafterTurn
  rw [round, fst_runWorkers _ s (hafter.workers ▸ hall), hafter.workers, heq, hturn']
  rfl

theorem foldl_round_idle (s : Roster) {rounds : List Round}
    (hall : ∀ r ∈ rounds, ∀ k < max config.routineAmount 1, k ∈ r.workers)
    (hturns : start + callCount rounds < 2 ^ 64) :
    (rounds.foldl round (idle id config users rooms start, s)).1 =
      idle id config users rooms (start + callCount rounds) := by
  induction rounds generalizing start s with
  | nil => rfl
  | cons r rounds ih =>
    rw [List.forall_mem_cons] at hall
    have hcount : callCount (r :: rounds) = r.jobs.length + callCount rounds := List.sum_cons
    rw [hcount, ← Nat.add_assoc] at hturns ⊢
    have hround := round_idle id config users rooms s hall.1
      (Nat.lt_of_le_of_lt (Nat.le_add_right _ _) hturns)
    rw [List.foldl_cons, ← ih (round (idle id config users rooms start, s) r).2 hall.2 hturns,
      ← hround]

/-- From empty queues, and again whenever all workers have run, a bucket of `w` workers whose queues
hold `q` jobs each accepts the next `w * q` messages, for whatever rooms, and drops all later ones,
wherever the turn is. No message is queued on a worker that the bucket does not have. -/
theorem broadcast_capacity (start : Nat) (s : Roster) (rounds : List Round) (jobs : List Job)
    (hall : ∀ r ∈ rounds, ∀ k < max config.routineAmount 1, k ∈ r.workers)
    (hturns : start + callCount rounds + jobs.length < 2 ^ 64) :
    let w := max config.routineAmount 1
    let q := max config.routineSize 1
    let b := (rounds.foldl round (idle id config users rooms start, s)).1
    b = idle id config users rooms (start + callCount rounds) ∧
    b.answers jobs = List.replicate (min jobs.length (w * q)) .accepted ++
      List.replicate (jobs.length - w * q) .dropped ∧
    ∀ more, (b.afterCalls more).nextWorker < (b.afterCalls more).workerCount := by
  intro w q b
  have hpos : 0 < w := Nat.lt_of_lt_of_le Nat.one_pos (Nat.le_max_right _ _)
  have hstart : start + callCount rounds < 2 ^ 64 :=
    Nat.lt_of_le_of_lt (Nat.le_add_right _ _) hturns
  have hb : b = idle id config users rooms (start + callCount rounds) :=
    foldl_round_idle id config users rooms s hall hstart
  refine ⟨hb, ?_, fun more => ?_⟩
  · rw [hb]
    exact ((filled_idle id config users rooms hstart).answers hpos jobs hturns).1
  · rw [nextWorker, workerCount_afterCalls, hb, workerCount_idle]
    exact Nat.mod_lt _ hpos

end Rounds

/-- Two workers with two places each, shortly before the turn would start again from 0: four
messages of five are accepted, and after the workers have run, four of five again. -/
theorem broadcast_capacity_near_wrap :
    let job : Job := ⟨⟨7⟩, ⟨1, .roomSend, ⟨9⟩, "hello"⟩⟩
    let rounds : List Round := [⟨List.replicate 5 job, [1, 0]⟩]
    let config : BucketConfig := ⟨1, 0, 0, 2, 2⟩
    (∀ r ∈ rounds, ∀ k < max config.routineAmount 1, k ∈ r.workers) ∧
      2 ^ 64 - 11 + callCount rounds + (List.replicate 5 job).length < 2 ^ 64 ∧
      (rounds.foldl round (idle 0 config .empty .empty (2 ^ 64 - 11), .empty)).1.answers
        (List.replicate 5 job) = [.accepted, .accepted, .accepted, .accepted, .dropped] := by
  intro job rounds config
  have hall : ∀ r ∈ rounds, ∀ k < max config.routineAmount 1, k ∈ r.workers := by decide
  have hturns : 2 ^ 64 - 11 + callCount rounds + (List.replicate 5 job).length < 2 ^ 64 := by decide
  exact ⟨hall, hturns,
    (broadcast_capacity 0 config .empty .empty _ .empty rounds _ hall hturns).2.1⟩

end ChatRelay.Bucket
