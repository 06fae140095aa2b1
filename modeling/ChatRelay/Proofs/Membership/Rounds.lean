import ChatRelay.Proofs.Membership.Queues
import Mathlib.Data.List.Basic

/-!
# Rounds of the workers

When the workers of a hub run, each worker that is awake empties its queue, in the order in which
they woke up. Such a round consists of single steps of work. What it does to one channel depends
on one bucket alone, the channel's own: the jobs that wait there, worker by worker, are offered to
the channel as far as it is a member of their rooms.
-/

namespace ChatRelay.Hub

variable {h : Hub} {b : Bucket} {w : WorkerRef} {c : ChannelRef}

/-! ## One worker -/

/-- Let a worker perform as many jobs as it has. -/
def clear (h : Hub) (w : WorkerRef) : Hub :=
  (List.replicate (h.queue w).length w).foldl work h

theorem foldl_work_eq {jobs : List Job} (hb : h.buckets[w.bucket]? = some b)
    (hq : h.queue w = jobs) (hne : jobs ≠ []) :
    (List.replicate jobs.length w).foldl work h = { h with
      roster := jobs.foldl b.perform h.roster
      buckets := h.buckets.set w.bucket { b with queues := b.queues.set w.worker [] }
      awake := h.awake.erase w } := by
  induction jobs generalizing h b with
  | nil => exact absurd rfl hne
  | cons job rest ih =>
    rw [List.length_cons, List.replicate_succ, List.foldl_cons]
    cases rest with
    | nil =>
      rw [work_of_cons hb hq]
      rfl
    | cons job' rest =>
      have hb' : (h.work w).buckets[w.bucket]? =
          some { b with queues := b.queues.set w.worker (job' :: rest) } := by
        rw [work_bucket hb hq, if_pos rfl]
      have hq' : (h.work w).queue w = job' :: rest := by
        rw [queue_work hq, if_pos rfl]
      rw [ih hb' hq' (List.cons_ne_nil _ _), work_of_cons hb hq]
      simp only [List.set_set, List.foldl_cons, List.isEmpty_cons, Bool.false_eq_true, if_false]
      rfl

/-- A worker that performs its jobs one by one empties its queue and falls asleep. -/
theorem clear_eq (hq : h.queue w ≠ []) :
    h.clear w = { h.runWorker w with awake := h.awake.erase w } := by
  obtain ⟨job, rest, hcons⟩ := List.exists_cons_of_ne_nil hq
  obtain ⟨b, hb⟩ := exists_bucket_of_queue hcons
  rw [clear, foldl_work_eq hb rfl hq, queue_of_bucket hb]
  simp only [runWorker, hb, Bucket.runWorker]
  rfl

theorem Sound.foldl_work (hh : h.Sound) (ws : List WorkerRef) : (ws.foldl Hub.work h).Sound := by
  induction ws generalizing h with
  | nil => exact hh
  | cons w ws ih => exact ih (hh.work w)

theorem Staffed.foldl_work (hh : h.Staffed) (ws : List WorkerRef) :
    (ws.foldl Hub.work h).Staffed := by
  induction ws generalizing h with
  | nil => exact hh
  | cons w ws ih => exact ih (hh.work w)

theorem Sound.membersOf_foldl_work (hh : h.Sound) (ws : List WorkerRef) (i : Nat) (id : RoomId) :
    (ws.foldl Hub.work h).membersOf i id = h.membersOf i id := by
  induction ws generalizing h with
  | nil => rfl
  | cons w ws ih => exact (ih (hh.work w)).trans (hh.membersOf_work w i id)

theorem queue_clear (h : Hub) (w w' : WorkerRef) :
    (h.clear w).queue w' = if w' = w then [] else h.queue w' := by
  have hsteps : ∀ (jobs : List Job) (h : Hub), h.queue w = jobs →
      ((List.replicate jobs.length w).foldl work h).queue w' =
        if w' = w then [] else h.queue w' := by
    intro jobs
    induction jobs with
    | nil =>
      intro h hq
      split
      next he =>
        rw [he]
        exact hq
      next => rfl
    | cons job rest ih =>
      intro h hq
      have hq' := queue_work hq w
      rw [if_pos rfl] at hq'
      rw [List.length_cons, List.replicate_succ, List.foldl_cons, ih _ hq', queue_work hq]
      split <;> rfl
  exact hsteps _ h rfl

/-- The offers that a list of jobs in a bucket makes to a channel. -/
def offerAll (h : Hub) (i : Nat) (jobs : List Job) (c : ChannelRef) (m : Mailbox) : Mailbox :=
  jobs.foldl (fun m job => Roster.offerTo (h.membersOf i job.room) job.msg c m) m

theorem offerAll_append (h : Hub) (i : Nat) (jobs jobs' : List Job) (c : ChannelRef)
    (m : Mailbox) :
    h.offerAll i (jobs ++ jobs') c m = h.offerAll i jobs' c (h.offerAll i jobs c m) :=
  List.foldl_append

theorem offerAll_of_notMem {i : Nat} (hc : ∀ id, c ∉ h.membersOf i id) (jobs : List Job)
    (m : Mailbox) : h.offerAll i jobs c m = m := by
  induction jobs generalizing m with
  | nil => rfl
  | cons job rest ih =>
    rw [offerAll, List.foldl_cons, Roster.offerTo, if_neg (hc _)]
    exact ih m

/-- Only the rooms that the channel is in matter. -/
theorem offerAll_congr {g : Hub} {i j : Nat}
    (hc : ∀ id, c ∈ h.membersOf i id ↔ c ∈ g.membersOf j id) (jobs : List Job) (m : Mailbox) :
    h.offerAll i jobs c m = g.offerAll j jobs c m := by
  simp only [offerAll, Roster.offerTo, hc]

theorem Sound.clear_roster (hh : h.Sound) (w : WorkerRef) :
    (h.clear w).roster = h.roster.mapMail (h.offerAll w.bucket (h.queue w)) := by
  have hsteps : ∀ (jobs : List Job) (h : Hub), h.Sound → h.queue w = jobs →
      ((List.replicate jobs.length w).foldl Hub.work h).roster =
        h.roster.mapMail (h.offerAll w.bucket jobs) := by
    intro jobs
    induction jobs with
    | nil =>
      intro h _ _
      exact (Roster.mapMail_id h.roster).symm
    | cons job rest ih =>
      intro h hh hq
      have hq' := queue_work hq w
      rw [if_pos rfl] at hq'
      rw [List.length_cons, List.replicate_succ, List.foldl_cons, ih _ (hh.work w) hq',
        hh.work_roster hq, Roster.mapMail_mapMail]
      congr 1
      funext c m
      simp only [offerAll, hh.membersOf_work, List.foldl_cons]
  exact hsteps _ h hh rfl

/-! ## All workers -/

theorem runWorker_awake (h : Hub) (ws : List WorkerRef) (w : WorkerRef) :
    ({ h with awake := ws } : Hub).runWorker w = { h.runWorker w with awake := ws } := by
  unfold runWorker
  cases h.buckets[w.bucket]? <;> rfl

theorem foldl_runWorker_awake (h : Hub) (ws ws' : List WorkerRef) :
    ws'.foldl runWorker { h with awake := ws } =
      { ws'.foldl runWorker h with awake := ws } := by
  induction ws' generalizing h with
  | nil => rfl
  | cons w ws' ih => rw [List.foldl_cons, List.foldl_cons, runWorker_awake, ih]

theorem run_of_nil (ha : h.awake = []) : h.run = h := by
  rw [run, ha, List.foldl_nil, ← ha]

/-- A round begins with the worker that woke up first. -/
theorem Staffed.run_of_cons (hh : h.Staffed) {ws : List WorkerRef} (ha : h.awake = w :: ws) :
    (h.clear w).awake = ws ∧ h.run = (h.clear w).run := by
  have hmem : w ∈ h.awake := by
    rw [ha]
    exact List.mem_cons_self
  have hq : h.queue w ≠ [] := (hh.mem_awake w).mp hmem
  have hclear := clear_eq hq
  rw [ha, List.erase_cons_head] at hclear
  have hawake : (h.clear w).awake = ws := by rw [hclear]
  refine ⟨hawake, ?_⟩
  rw [Hub.run, Hub.run, hawake, ha, List.foldl_cons, hclear,
    foldl_runWorker_awake (h.runWorker w) ws ws]

/-- Every round can be followed worker by worker. -/
theorem Staffed.run_induction {P : Hub → Prop} (hh : h.Staffed)
    (hasleep : ∀ h : Hub, h.Staffed → h.awake = [] → P h)
    (hclear : ∀ (h : Hub) (w : WorkerRef) (ws : List WorkerRef), h.Staffed → h.awake = w :: ws →
      (h.clear w).awake = ws → h.run = (h.clear w).run → P (h.clear w) → P h) : P h := by
  induction ha : h.awake generalizing h with
  | nil => exact hasleep h hh ha
  | cons w ws ih =>
    obtain ⟨hawake, hrun⟩ := hh.run_of_cons ha
    exact hclear h w ws hh ha hawake hrun (ih (hh.foldl_work _) hawake)

/-- The single steps of a round. -/
def turns (h : Hub) : List WorkerRef :=
  h.awake.flatMap fun w => List.replicate (h.queue w).length w

/-- The other workers' queues stay while a worker empties its own. -/
theorem Staffed.queue_clear_of_mem (hh : h.Staffed) {ws : List WorkerRef}
    (ha : h.awake = w :: ws) {w' : WorkerRef} (hw : w' ∈ ws) :
    (h.clear w).queue w' = h.queue w' := by
  have hnd := hh.nodup
  rw [ha, List.nodup_cons] at hnd
  have hne : w' ≠ w := by
    rintro rfl
    exact hnd.1 hw
  rw [queue_clear, if_neg hne]

/-- A round consists of single steps of work. -/
theorem Staffed.run_eq_foldl_work (hh : h.Staffed) : h.run = h.turns.foldl Hub.work h := by
  refine hh.run_induction (P := fun h => h.run = h.turns.foldl Hub.work h) ?_ ?_
  · intro h _ ha
    rw [run_of_nil ha, turns, ha]
    rfl
  · intro h w ws hh ha hawake hrun ih
    have hturns : (h.clear w).turns = ws.flatMap fun w => List.replicate (h.queue w).length w := by
      rw [turns, hawake]
      exact List.flatMap_congr fun w' hw => by rw [hh.queue_clear_of_mem ha hw]
    rw [hrun, ih, hturns, turns, ha, List.flatMap_cons, List.foldl_append]
    rfl

theorem Sound.run (hh : h.Sound) (hst : h.Staffed) : h.run.Sound := by
  rw [hst.run_eq_foldl_work]
  exact hh.foldl_work _

theorem Staffed.run (hh : h.Staffed) : h.run.Staffed := by
  rw [hh.run_eq_foldl_work]
  exact hh.foldl_work _

/-- After a round nothing waits. -/
theorem Staffed.queue_run (hh : h.Staffed) (w : WorkerRef) : h.run.queue w = [] := by
  have hw := hh.run.mem_awake w
  by_contra hq
  exact absurd (hw.mpr hq) List.not_mem_nil

/-! ## What a round does -/

/-- The workers of a bucket that are awake, in the order in which they woke up. -/
def awakeAt (h : Hub) (i : Nat) : List Nat :=
  (h.awake.filter fun w => w.bucket = i).map WorkerRef.worker

/-- The jobs that wait in a bucket, in the order in which a round performs them. -/
def jobsAt (h : Hub) (i : Nat) : List Job :=
  (h.awakeAt i).flatMap fun k => h.queue ⟨i, k⟩

theorem mem_awakeAt {i k : Nat} : k ∈ h.awakeAt i ↔ ⟨i, k⟩ ∈ h.awake := by
  rw [awakeAt, List.mem_map]
  constructor
  · rintro ⟨w, hw, rfl⟩
    obtain ⟨hmem, hi⟩ := List.mem_filter.mp hw
    obtain rfl := of_decide_eq_true hi
    exact hmem
  · intro hw
    exact ⟨⟨i, k⟩, List.mem_filter.mpr ⟨hw, decide_eq_true rfl⟩, rfl⟩

/-- A round makes the offers of one worker after the other. -/
theorem Staffed.run_roster (hst : h.Staffed) (hh : h.Sound) :
    h.run.roster = h.roster.mapMail fun c m =>
      h.awake.foldl (fun m w => h.offerAll w.bucket (h.queue w) c m) m := by
  refine hst.run_induction (P := fun h => h.Sound → h.run.roster = h.roster.mapMail fun c m =>
      h.awake.foldl (fun m w => h.offerAll w.bucket (h.queue w) c m) m) ?_ ?_ hh
  · intro h _ ha _
    rw [run_of_nil ha, ha]
    exact (Roster.mapMail_id h.roster).symm
  · intro h w ws hst ha hawake hrun ih hh
    rw [hrun, ih (hh.foldl_work _), hh.clear_roster, Roster.mapMail_mapMail, hawake, ha]
    congr 1
    funext c m
    rw [List.foldl_cons]
    refine List.foldl_ext _ _ _ fun m' w' hw => ?_
    rw [hst.queue_clear_of_mem ha hw]
    simp only [offerAll, clear, hh.membersOf_foldl_work]

/-- Offers in buckets where a channel is in no room do not reach it. -/
theorem foldl_offerAll {i : Nat} (hc : ∀ j, j ≠ i → ∀ id, c ∉ h.membersOf j id)
    (ws : List WorkerRef) (m : Mailbox) :
    ws.foldl (fun m w => h.offerAll w.bucket (h.queue w) c m) m =
      h.offerAll i (((ws.filter fun w => w.bucket = i).map WorkerRef.worker).flatMap
        fun k => h.queue ⟨i, k⟩) c m := by
  induction ws generalizing m with
  | nil => rfl
  | cons w ws ih =>
    rw [List.foldl_cons, ih]
    by_cases hw : w.bucket = i
    · subst hw
      rw [List.filter_cons_of_pos (by simp), List.map_cons, List.flatMap_cons, offerAll_append]
    · have hnone : h.offerAll w.bucket (h.queue w) c m = m := offerAll_of_notMem (hc _ hw) _ m
      rw [List.filter_cons_of_neg (by simpa using hw), hnone]

/-- A round offers a channel the jobs of the bucket of its user. -/
theorem Staffed.run_channel (hst : h.Staffed) (hh : h.Sound) (c : ChannelRef) :
    h.run.roster.channel? c = (h.roster.channel? c).map fun ch => { ch with
      mailbox := h.offerAll (h.place ch.user) (h.jobsAt (h.place ch.user)) c ch.mailbox } := by
  rw [hst.run_roster hh, Roster.channel?_mapMail]
  cases hc : h.roster.channel? c with
  | none => rfl
  | some channel =>
    have hplace : ∀ j, j ≠ h.place channel.user → ∀ id, c ∉ h.membersOf j id := by
      intro j hj id hmem
      obtain ⟨-, channel', hc', -, -, -, hj'⟩ := hh.mem_membersOf.mp hmem
      rw [hc] at hc'
      obtain rfl := Option.some.inj hc'
      exact hj hj'.symm
    simp only [Option.map_some, foldl_offerAll hplace]
    rfl

/-- Steps of work take jobs off queues, and change nothing else in a bucket. -/
theorem foldl_work_bucket {i : Nat} (hb : h.buckets[i]? = some b) (ws : List WorkerRef) :
    ∃ queues, queues.length = b.queues.length ∧
      (ws.foldl work h).buckets[i]? = some { b with queues } := by
  induction ws generalizing h b with
  | nil => exact ⟨b.queues, rfl, hb⟩
  | cons w ws ih =>
    have hstep : ∃ queues, queues.length = b.queues.length ∧
        (h.work w).buckets[i]? = some { b with queues } := by
      cases hq : h.queue w with
      | nil =>
        refine ⟨b.queues, rfl, ?_⟩
        rw [work_of_nil hq, hb]
      | cons job rest =>
        obtain ⟨b', hb'⟩ := exists_bucket_of_queue hq
        rw [work_bucket hb' hq]
        split
        next he =>
          rw [he, hb'] at hb
          obtain rfl := Option.some.inj hb
          exact ⟨_, List.length_set, rfl⟩
        next => exact ⟨b.queues, rfl, hb⟩
    obtain ⟨queues, hlen, hb'⟩ := hstep
    obtain ⟨queues', hlen', hb''⟩ := ih hb'
    exact ⟨queues', hlen'.trans hlen, hb''⟩

theorem length_buckets_foldl_work (h : Hub) (ws : List WorkerRef) :
    (ws.foldl work h).buckets.length = h.buckets.length := by
  induction ws generalizing h with
  | nil => rfl
  | cons w ws ih => exact (ih _).trans (h.length_buckets_work w)

theorem Staffed.length_buckets_run (hst : h.Staffed) :
    h.run.buckets.length = h.buckets.length := by
  rw [hst.run_eq_foldl_work]
  exact length_buckets_foldl_work h _

theorem Staffed.userAt_run (hst : h.Staffed) (i : Nat) (user : UserId) :
    h.run.userAt i user = h.userAt i user := by
  have hsteps : ∀ (ws : List WorkerRef) (h : Hub),
      (ws.foldl Hub.work h).userAt i user = h.userAt i user := by
    intro ws
    induction ws with
    | nil =>
      intro h
      rfl
    | cons w ws ih =>
      intro h
      rw [List.foldl_cons, ih, userAt_work]
  rw [hst.run_eq_foldl_work, hsteps]

/-- A round leaves every bucket with empty queues. -/
theorem Staffed.run_bucket (hst : h.Staffed) (i : Nat) :
    h.run.buckets[i]? =
      (h.buckets[i]?).map fun b => { b with queues := List.replicate b.queues.length [] } := by
  have hempty := hst.queue_run
  rw [hst.run_eq_foldl_work] at hempty ⊢
  cases hb : h.buckets[i]? with
  | none =>
    rw [Option.map_none, List.getElem?_eq_none_iff, length_buckets_foldl_work]
    exact List.getElem?_eq_none_iff.mp hb
  | some b =>
    obtain ⟨queues, hlen, hb'⟩ := foldl_work_bucket hb h.turns
    rw [hb', Option.map_some]
    congr 2
    rw [List.eq_replicate_iff]
    refine ⟨hlen, fun q hq => ?_⟩
    obtain ⟨k, hk, rfl⟩ := List.mem_iff_getElem.mp hq
    have hqk := hempty ⟨i, k⟩
    rw [queue_of_bucket hb', Bucket.queue, List.getD_eq_getElem?_getD,
      List.getElem?_eq_getElem hk] at hqk
    exact hqk

end ChatRelay.Hub
