import ChatRelay.Proofs.Membership.Rounds
import Mathlib.Data.List.Nodup

/-!
# Hubs in lockstep

A message for a room is queued in every bucket, on the worker whose turn it is there. So all buckets
always hold the same jobs on the same workers, have the same turn, and drop the same messages, no
matter which users they serve. Two hubs with different numbers of buckets therefore stay in
`Lockstep`: any bucket of the one has the queues of any bucket of the other, and its workers have
woken up in the same order.
-/

namespace ChatRelay

namespace Bucket

/-- The queues, their bound and whose turn it is are the same. -/
structure SameQueues (b d : Bucket) : Prop where
  queues : b.queues = d.queues
  bound : b.queueBound = d.queueBound
  turn : b.turn = d.turn

namespace SameQueues

variable {b d : Bucket}

theorem queue (hq : SameQueues b d) (worker : Nat) : b.queue worker = d.queue worker := by
  rw [Bucket.queue, Bucket.queue, hq.queues]

theorem nextWorker (hq : SameQueues b d) : b.nextWorker = d.nextWorker := by
  rw [Bucket.nextWorker, Bucket.nextWorker, Bucket.workerCount, Bucket.workerCount, hq.queues,
    hq.turn]

theorem isFull (hq : SameQueues b d) : b.isFull ↔ d.isFull := by
  rw [Bucket.isFull, Bucket.isFull, hq.bound, hq.nextWorker, hq.queue]

theorem broadcast (hq : SameQueues b d) (room : RoomId) (msg : Msg) :
    SameQueues (b.broadcast room msg).2 (d.broadcast room msg).2 := by
  rw [broadcast_eq, broadcast_eq]
  by_cases hf : d.isFull
  · rw [if_pos (hq.isFull.mpr hf), if_pos hf]
    exact ⟨hq.queues, hq.bound, congrArg (· + 1) hq.turn⟩
  · rw [if_neg (fun h => hf (hq.isFull.mp h)), if_neg hf]
    refine ⟨?_, hq.bound, congrArg (· + 1) hq.turn⟩
    change b.queues.modify _ _ = d.queues.modify _ _
    rw [hq.queues, hq.nextWorker]

end SameQueues

end Bucket

namespace Hub

variable {h h' g g' : Hub} {b d : Bucket} {i j : Nat}

/-- Any two buckets have the same queues, and their workers woke up in the same order. -/
structure Lockstep (h g : Hub) : Prop where
  buckets : ∀ (i j : Nat) (b d : Bucket), h.buckets[i]? = some b → g.buckets[j]? = some d →
    b.SameQueues d
  awake : ∀ i j : Nat, i < h.buckets.length → j < g.buckets.length → h.awakeAt i = g.awakeAt j

/-! ## Queueing -/

theorem filter_flatMap_woken (h : Hub) (n i : Nat) :
    (((List.range n).flatMap h.woken).filter fun w => w.bucket = i) =
      if i < n then h.woken i else [] := by
  induction n with
  | zero => rfl
  | succ n ih =>
    rw [List.range_succ, List.flatMap_append, List.flatMap_singleton, List.filter_append, ih]
    by_cases hi : i = n
    · subst hi
      have hall : (h.woken i).filter (fun w => w.bucket = i) = h.woken i :=
        List.filter_eq_self.mpr fun w hw => decide_eq_true (bucket_of_mem_woken hw)
      rw [hall, if_neg (Nat.lt_irrefl i), if_pos (Nat.lt_succ_self i), List.nil_append]
    · have hnone : (h.woken n).filter (fun w => w.bucket = i) = [] := by
        rw [List.filter_eq_nil_iff]
        intro w hw
        rw [bucket_of_mem_woken hw]
        simpa using Ne.symm hi
      have hlt : i < n + 1 ↔ i < n := by omega
      simp only [hnone, List.append_nil, hlt]

theorem awakeAt_broadcastAll (hb : h.buckets[i]? = some b) (room : RoomId) (msg : Msg) :
    (h.broadcastAll room msg).awakeAt i = h.awakeAt i ++
      if b.isFull ∨ b.nextWorker ∈ h.awakeAt i then [] else [b.nextWorker] := by
  have hwoken : (h.woken i).map WorkerRef.worker =
      if b.isFull ∨ b.nextWorker ∈ h.awakeAt i then [] else [b.nextWorker] := by
    simp only [woken, hb, Option.elim_some, mem_awakeAt]
    split <;> rfl
  rw [awakeAt, broadcastAll_awake, List.filter_append, List.map_append, filter_flatMap_woken,
    if_pos (lt_of_bucket hb), hwoken]
  rfl

namespace Lockstep

/-- Only queues matter. -/
theorem congr (hl : Lockstep h g) (hh : Hub.SameQueues h h') (hg : Hub.SameQueues g g') :
    Lockstep h' g' := by
  have hawake : ∀ {h h' : Hub}, Hub.SameQueues h h' → ∀ i, h'.awakeAt i = h.awakeAt i :=
    fun hq i => by rw [awakeAt, awakeAt, hq.awake]
  have hlt : ∀ {h h' : Hub}, Hub.SameQueues h h' → ∀ i : Nat, i < h'.buckets.length →
      i < h.buckets.length := by
    intro h h' hq i hi
    obtain ⟨b, hb, -⟩ := hq.symm.bucket (List.getElem?_eq_getElem hi)
    exact lt_of_bucket hb
  constructor
  · intro i j b' d' hb' hd'
    obtain ⟨b, hb, hqb, hbb, htb⟩ := hh.symm.bucket hb'
    obtain ⟨d, hd, hqd, hbd, htd⟩ := hg.symm.bucket hd'
    obtain ⟨hqueues, hbound, hturn⟩ := hl.buckets i j b d hb hd
    exact ⟨by rw [← hqb, ← hqd, hqueues], by rw [← hbb, ← hbd, hbound],
      by rw [← htb, ← htd, hturn]⟩
  · intro i j hi hj
    rw [hawake hh, hawake hg]
    exact hl.awake i j (hlt hh i hi) (hlt hg j hj)

theorem new (config : BucketConfig) (n m : Nat) :
    Lockstep (new { config with count := n }) (new { config with count := m }) where
  buckets i j b d hb hd := by
    rw [eq_new_of_bucket hb, eq_new_of_bucket hd]
    exact ⟨rfl, rfl, rfl⟩
  awake _ _ _ _ := rfl

/-- A message is queued, or dropped, in all buckets alike. -/
theorem broadcastAll (hl : Lockstep h g) (room : RoomId) (msg : Msg) :
    Lockstep (h.broadcastAll room msg) (g.broadcastAll room msg) := by
  have hbucket : ∀ {h : Hub} {i : Nat}, i < (h.broadcastAll room msg).buckets.length →
      ∃ b, h.buckets[i]? = some b := by
    intro h i hi
    have hb := List.getElem?_eq_getElem hi
    rw [broadcastAll_bucket, Option.map_eq_some_iff] at hb
    obtain ⟨b, hb, -⟩ := hb
    exact ⟨b, hb⟩
  constructor
  · intro i j b' d' hb' hd'
    rw [broadcastAll_bucket, Option.map_eq_some_iff] at hb' hd'
    obtain ⟨b, hb, rfl⟩ := hb'
    obtain ⟨d, hd, rfl⟩ := hd'
    exact (hl.buckets i j b d hb hd).broadcast room msg
  · intro i j hi hj
    obtain ⟨b, hb⟩ := hbucket hi
    obtain ⟨d, hd⟩ := hbucket hj
    have hsame := hl.buckets i j b d hb hd
    have hawake := hl.awake i j (lt_of_bucket hb) (lt_of_bucket hd)
    simp only [awakeAt_broadcastAll hb, awakeAt_broadcastAll hd, hawake, hsame.nextWorker,
      hsame.isFull]

/-- The same jobs wait in all buckets, in the same order. -/
theorem jobsAt (hl : Lockstep h g) (hi : i < h.buckets.length) (hj : j < g.buckets.length) :
    h.jobsAt i = g.jobsAt j := by
  have hb := List.getElem?_eq_getElem hi
  have hd := List.getElem?_eq_getElem hj
  rw [Hub.jobsAt, Hub.jobsAt, hl.awake i j hi hj]
  refine List.flatMap_congr fun k _ => ?_
  rw [queue_of_bucket hb, queue_of_bucket hd]
  exact (hl.buckets i j _ _ hb hd).queue k

theorem run (hl : Lockstep h g) (hh : h.Staffed) (hg : g.Staffed) : Lockstep h.run g.run := by
  constructor
  · intro i j b' d' hb' hd'
    rw [hh.run_bucket, Option.map_eq_some_iff] at hb'
    rw [hg.run_bucket, Option.map_eq_some_iff] at hd'
    obtain ⟨b, hb, rfl⟩ := hb'
    obtain ⟨d, hd, rfl⟩ := hd'
    obtain ⟨hqueues, hbound, hturn⟩ := hl.buckets i j b d hb hd
    exact ⟨by rw [hqueues], hbound, hturn⟩
  · intro i j _ _
    rfl

end Lockstep

/-! ## The number of users -/

/-- The users that are registered, bucket by bucket. -/
def registered (h : Hub) : List UserId :=
  h.buckets.flatMap fun b => b.users.keys

theorem channelCount_eq_length (h : Hub) : h.channelCount = h.registered.length := by
  rw [channelCount, total, registered]
  induction h.buckets with
  | nil => rfl
  | cons b bs ih =>
    have hb : b.channelCount = b.users.keys.length := by
      rw [Bucket.channelCount, Table.size, Table.keys, List.length_map]
    rw [List.foldr_cons, ih, hb, List.flatMap_cons, List.length_append]

theorem Sound.mem_registered (hh : h.Sound) (user : UserId) :
    user ∈ h.registered ↔ (h.userAt (h.place user) user).isSome = true := by
  rw [registered, List.mem_flatMap]
  constructor
  · rintro ⟨b, hb, hu⟩
    obtain ⟨i, hi⟩ := List.mem_iff_getElem?.mp hb
    rw [Table.mem_keys] at hu
    obtain ⟨c, hc⟩ := Option.isSome_iff_exists.mp hu
    have hat : h.userAt i user = some c := (userAt_of_bucket hi user).trans hc
    have hplace := (hh.coherent.registered i user c hat).1
    rw [← hplace, hat]
    rfl
  · intro hu
    obtain ⟨b, hb⟩ := hh.exists_bucket user
    refine ⟨b, List.mem_of_getElem? hb, Table.mem_keys.mpr ?_⟩
    rw [userAt_of_bucket hb] at hu
    exact hu

/-- No user is registered twice, not even in different buckets. -/
theorem Sound.nodup_registered (hh : h.Sound) : h.registered.Nodup := by
  rw [registered, List.nodup_flatMap]
  refine ⟨fun b _ => b.users.nodup, ?_⟩
  rw [List.pairwise_iff_getElem]
  intro i j hi hj hij user hu hu'
  rw [Table.mem_keys] at hu hu'
  obtain ⟨c, hc⟩ := Option.isSome_iff_exists.mp hu
  obtain ⟨c', hc'⟩ := Option.isSome_iff_exists.mp hu'
  have hplace := (hh.coherent.registered i user c
    ((userAt_of_bucket (List.getElem?_eq_getElem hi) user).trans hc)).1
  have hplace' := (hh.coherent.registered j user c'
    ((userAt_of_bucket (List.getElem?_eq_getElem hj) user).trans hc')).1
  omega

theorem Sound.channelCount_eq (hh : h.Sound) (hg : g.Sound)
    (hu : ∀ user, h.userAt (h.place user) user = g.userAt (g.place user) user) :
    h.channelCount = g.channelCount := by
  have hperm : h.registered.Perm g.registered := by
    rw [List.perm_ext_iff_of_nodup hh.nodup_registered hg.nodup_registered]
    intro user
    rw [hh.mem_registered, hg.mem_registered, hu]
  rw [channelCount_eq_length, channelCount_eq_length, hperm.length_eq]

end Hub

end ChatRelay
