import ChatRelay.Proofs.Relay.Logbook

/-!
# The order of calls

The calls of one worker stand in one line, in call order (`Faithful`): a call joins the line at its
end, and the worker takes up calls from its front. Two calls go to the same worker if their numbers
leave the same rest by the number of workers. This much of the call order is found again in every
mailbox, however workers, registrations and removals come between each other, and it is all of it if
there is only one worker (`received_in_call_order`).
-/

namespace ChatRelay.Logbook

variable {l : Logbook} {count k : Nat} {c : ChannelRef}

/-! ## Lines -/

/-- The worker of a call, by the number of the call. -/
def workerOf (count n : Nat) : Nat :=
  n % 2 ^ 64 % count

/-- The calls of worker `k`, the one that it took up last and those that wait, stand in call order,
and are those of the jobs that it has. -/
structure Line (count : Nat) (calls : List Job) (k : Nat) (hand : Hand) (jobs : List Job)
    (latest : Nat) (waiting : List Nat) : Prop where
  jobs : waiting.map (calls[·]?) = jobs.map some
  turns : ∀ n ∈ waiting, workerOf count n = k
  hand : ∀ msg, hand.msg? = some msg →
    (calls[latest]?).map Job.msg = some msg ∧ workerOf count latest = k
  inOrder : (latest :: waiting).Pairwise (· ≤ ·)
  le_length : ∀ n ∈ latest :: waiting, n ≤ calls.length

theorem getElem?_calls_concat {calls : List Job} {n : Nat} {job job' : Job}
    (h : calls[n]? = some job') : (calls ++ [job])[n]? = some job' := by
  rw [List.getElem?_append_left (List.getElem?_eq_some_iff.mp h).1, h]

theorem msg_calls_concat {calls : List Job} {n : Nat} {job : Job} {msg : Msg}
    (h : (calls[n]?).map Job.msg = some msg) :
    ((calls ++ [job])[n]?).map Job.msg = some msg := by
  obtain ⟨job', hjob', rfl⟩ := Option.map_eq_some_iff.mp h
  rw [getElem?_calls_concat hjob', Option.map_some]

namespace Line

variable {calls jobs : List Job} {hand : Hand} {latest n : Nat} {waiting : List Nat} {job : Job}

theorem new (count k : Nat) : Line count [] k .empty [] 0 [] where
  jobs := rfl
  turns n hn := by cases hn
  hand msg hmsg := by cases hmsg
  inOrder := List.pairwise_singleton ..
  le_length n hn := by
    rw [List.mem_singleton.mp hn]
    exact Nat.zero_le _

/-- A job that waits is the job of a call. -/
theorem exists_job (h : Line count calls k hand jobs latest waiting) (hn : n ∈ waiting) :
    ∃ job, calls[n]? = some job := by
  have hmem : calls[n]? ∈ jobs.map some := by
    rw [← h.jobs]
    exact List.mem_map_of_mem hn
  obtain ⟨job, -, hjob⟩ := List.mem_map.mp hmem
  exact ⟨job, hjob.symm⟩

/-- Another call is made, and it joins the line at its end if it is for this worker and there is
room. -/
theorem call (h : Line count calls k hand jobs latest waiting) (job : Job) {joins : Bool}
    (hjoins : joins = true → workerOf count calls.length = k) :
    Line count (calls ++ [job]) k hand (jobs ++ if joins then [job] else []) latest
      (waiting ++ if joins then [calls.length] else []) where
  jobs := by
    rw [List.map_append, List.map_append, ← h.jobs]
    congr 1
    · refine List.map_congr_left fun n hn => ?_
      obtain ⟨job', hjob'⟩ := h.exists_job hn
      rw [getElem?_calls_concat hjob', hjob']
    · split
      next => rw [List.map_singleton, List.map_singleton, List.getElem?_concat_length]
      next => rfl
  turns n hn := by
    rcases List.mem_append.mp hn with hn | hn
    · exact h.turns n hn
    · split at hn
      next hk =>
        rw [List.mem_singleton.mp hn]
        exact hjoins hk
      next => cases hn
  hand msg hmsg :=
    ⟨msg_calls_concat (h.hand msg hmsg).1, (h.hand msg hmsg).2⟩
  inOrder := by
    rw [← List.cons_append, List.pairwise_append]
    refine ⟨h.inOrder, ?_, ?_⟩
    · split
      next => exact List.pairwise_singleton ..
      next => exact .nil
    · intro n hn n' hn'
      split at hn'
      next =>
        rw [List.mem_singleton.mp hn']
        exact h.le_length n hn
      next => cases hn'
  le_length n hn := by
    rw [List.length_append, List.length_singleton]
    rw [← List.cons_append] at hn
    rcases List.mem_append.mp hn with hn | hn
    · exact Nat.le_succ_of_le (h.le_length n hn)
    · split at hn
      next =>
        rw [List.mem_singleton.mp hn]
        exact Nat.le_succ _
      next => cases hn

/-- Whoever has a job has the number of its call. -/
theorem exists_waiting (h : Line count calls k hand (job :: jobs) latest waiting) :
    ∃ n waiting', waiting = n :: waiting' := by
  cases waiting with
  | nil => cases h.jobs
  | cons n waiting' => exact ⟨n, waiting', rfl⟩

/-- A call that waits was made later than the one that was taken up last. -/
theorem latest_le (h : Line count calls k hand jobs latest (n :: waiting)) : latest ≤ n :=
  List.rel_of_pairwise_cons h.inOrder List.mem_cons_self

/-- The worker takes up the first call of its line. -/
theorem takeUp (h : Line count calls k hand (job :: jobs) latest (n :: waiting)) :
    Line count calls k (.holding job) jobs n waiting where
  jobs := (List.cons.inj h.jobs).2
  turns n' hn' := h.turns n' (List.mem_cons_of_mem n hn')
  hand msg hmsg := by
    have hjob : calls[n]? = some job := (List.cons.inj h.jobs).1
    rw [hjob]
    exact ⟨hmsg, h.turns n List.mem_cons_self⟩
  inOrder := h.inOrder.tail
  le_length n' hn' := h.le_length n' (List.mem_cons_of_mem latest hn')

/-- The worker goes on with the message that it has, or is done with it. -/
theorem proceed (h : Line count calls k hand jobs latest waiting) {hand' : Hand}
    (hmsg : ∀ msg, hand'.msg? = some msg → hand.msg? = some msg) :
    Line count calls k hand' jobs latest waiting :=
  ⟨h.jobs, h.turns, fun msg hm => h.hand msg (hmsg msg hm), h.inOrder, h.le_length⟩

end Line

/-! ## Keeping the books -/

/-- The line of a worker of a crew. -/
def HasLine (count : Nat) (l : Logbook) (k : Nat) : Prop :=
  Line count l.calls k (l.crew.hand k) (l.crew.bucket.queue k) (l.latest k) (l.waiting k)

/-- The notes agree with the crew, and the calls of each worker are in call order: those whose
messages were accepted first, then its line. -/
structure Faithful (count : Nat) (l : Logbook) : Prop where
  workers : l.crew.bucket.workerCount = count
  turn : l.crew.bucket.turn.toNat = l.calls.length % 2 ^ 64
  lines : ∀ k, l.HasLine count k
  receipts : ∀ x ∈ l.receipts,
    (l.calls[x.call]?).map Job.msg = some x.msg ∧ x.call ≤ l.latest (workerOf count x.call)
  inOrder : l.receipts.Pairwise fun x y =>
    workerOf count x.call = workerOf count y.call → x.call ≤ y.call

namespace Faithful

theorem new (id : Nat) (config : BucketConfig) (s : Roster) :
    (Logbook.new id config s).Faithful (max config.routineAmount 1) where
  workers := List.length_replicate
  turn := rfl
  lines k := by
    show Line _ [] k .empty ((Bucket.new id config).queue k) 0 []
    rw [Bucket.queue_new]
    exact .new _ k
  receipts x hx := by cases hx
  inOrder := .nil

theorem call (hl : l.Faithful count) (hcount : 0 < count) (job : Job) :
    (l.step (.call job)).Faithful count where
  workers := (Bucket.workerCount_broadcast ..).trans hl.workers
  turn := by
    show (l.crew.bucket.broadcast job.room job.msg).2.turn.toNat =
      (l.calls ++ [job]).length % 2 ^ 64
    have hone : (1 : UInt64).toNat = 1 := rfl
    rw [Bucket.turn_broadcast, UInt64.toNat_add, hl.turn, hone, Nat.mod_add_mod,
      List.length_append, List.length_singleton]
  lines k := by
    show Line count (l.calls ++ [job]) k (l.crew.hand k)
      ((l.crew.bucket.broadcast job.room job.msg).2.queue k) (l.latest k)
      (l.waiting k ++ if l.crew.bucket.accepts k then [l.calls.length] else [])
    have hne : l.crew.bucket.queues ≠ [] := by
      rw [← hl.workers] at hcount
      exact List.length_pos_iff.mp hcount
    rw [Bucket.queue_broadcast hne]
    refine (hl.lines k).call job fun hk => ?_
    rw [Bucket.accepts, Bool.and_eq_true, beq_iff_eq] at hk
    rw [hk.1, Bucket.nextWorker, hl.workers, hl.turn, workerOf]
  receipts x hx :=
    ⟨msg_calls_concat (hl.receipts x hx).1, (hl.receipts x hx).2⟩
  inOrder := hl.inOrder

theorem takeUp (hl : l.Faithful count) {n : Nat} {waiting : List Nat} {job : Job}
    {rest : List Job} (hn : l.waiting k = n :: waiting)
    (hq : l.crew.bucket.queue k = job :: rest) :
    Faithful count { l with
      crew := { l.crew with
        bucket := { l.crew.bucket with queues := l.crew.bucket.queues.set k rest }
        hand := Function.update l.crew.hand k (.holding job) }
      waiting := Function.update l.waiting k waiting
      latest := Function.update l.latest k n } where
  workers := List.length_set.trans hl.workers
  turn := hl.turn
  lines k' := by
    rw [HasLine, Bucket.queue_set (Bucket.lt_of_queue hq)]
    have hline := hl.lines k'
    rw [HasLine] at hline
    by_cases hk : k' = k
    · subst hk
      rw [hn, hq] at hline
      simp only [Function.update_self, if_true]
      exact hline.takeUp
    · simp only [Function.update_of_ne hk, if_neg hk]
      exact hline
  receipts x hx := by
    obtain ⟨hcalls, hle⟩ := hl.receipts x hx
    refine ⟨hcalls, ?_⟩
    show x.call ≤ Function.update l.latest k n (workerOf count x.call)
    by_cases hk : workerOf count x.call = k
    · have hline := hl.lines k
      rw [HasLine, hn] at hline
      rw [hk] at hle ⊢
      rw [Function.update_self]
      exact Nat.le_trans hle hline.latest_le
    · rw [Function.update_of_ne hk]
      exact hle
  inOrder := hl.inOrder

theorem proceed (hl : l.Faithful count) {hand : Hand}
    (hmsg : ∀ msg, hand.msg? = some msg → (l.crew.hand k).msg? = some msg) (s : Roster) :
    Faithful count { l with
      crew := { l.crew with roster := s, hand := Function.update l.crew.hand k hand } } where
  workers := hl.workers
  turn := hl.turn
  lines k' := by
    have hline := hl.lines k'
    rw [HasLine] at hline ⊢
    by_cases hk : k' = k
    · subst hk
      simp only [Function.update_self]
      exact hline.proceed hmsg
    · simp only [Function.update_of_ne hk]
      exact hline
  receipts := hl.receipts
  inOrder := hl.inOrder

/-- A mailbox accepts the message that a worker hands out. -/
theorem receive (hl : l.Faithful count) {msg : Msg} (hmsg : (l.crew.hand k).msg? = some msg)
    (c : ChannelRef) :
    Faithful count { l with receipts := l.receipts ++ [⟨l.latest k, c, msg⟩] } where
  workers := hl.workers
  turn := hl.turn
  lines := hl.lines
  receipts x hx := by
    rcases List.mem_append.mp hx with hx | hx
    · exact hl.receipts x hx
    · obtain ⟨hcalls, hturn⟩ := (hl.lines k).hand msg hmsg
      obtain rfl := List.mem_singleton.mp hx
      exact ⟨hcalls, Nat.le_of_eq (congrArg l.latest hturn.symm)⟩
  inOrder := by
    rw [List.pairwise_append]
    refine ⟨hl.inOrder, List.pairwise_singleton .., ?_⟩
    intro x hx y hy hxy
    obtain rfl := List.mem_singleton.mp hy
    -- What was accepted of this worker before belongs to no later call than what it has now.
    have hle := (hl.receipts x hx).2
    rw [hxy, ((hl.lines k).hand msg hmsg).2] at hle
    exact hle

/-- A step of a worker that takes nothing up and offers nothing. -/
theorem quiet (hl : l.Faithful count) (hnote : l.note (.work k) = l) {hand : Hand}
    (hwork : l.crew.work k = { l.crew with hand := Function.update l.crew.hand k hand })
    (hmsg : ∀ msg, hand.msg? = some msg → (l.crew.hand k).msg? = some msg) :
    (l.step (.work k)).Faithful count := by
  show Faithful count { l.note (.work k) with crew := l.crew.work k }
  rw [hnote, hwork]
  exact hl.proceed hmsg l.crew.roster

/-- A worker that waits takes up a call, if there is one. -/
theorem fetch (hl : l.Faithful count) (hh : l.crew.hand k = .empty) :
    (l.step (.work k)).Faithful count := by
  have hline := hl.lines k
  rw [HasLine] at hline
  cases hq : l.crew.bucket.queue k with
  | nil =>
    rw [hq] at hline
    have hwaiting : l.waiting k = [] := List.map_eq_nil_iff.mp hline.jobs
    have hsame : l.step (.work k) = l := by
      simp only [step, note, hh, hwaiting, Crew.step, Crew.work_empty_nil hh hq]
    rw [hsame]
    exact hl
  | cons job rest =>
    rw [hq] at hline
    obtain ⟨n, waiting, hn⟩ := hline.exists_waiting
    have hstep := hl.takeUp hn hq
    simp only [step, note, hh, hn, Crew.step, Crew.work_empty_cons hh hq]
    exact hstep

/-- A worker that has a member left to whom it offers its message. -/
theorem pass (hl : l.Faithful count) {cs : List ChannelRef} {msg : Msg}
    (hh : l.crew.hand k = .passing (c :: cs) msg) : (l.step (.work k)).Faithful count := by
  have hmsg : (l.crew.hand k).msg? = some msg := by
    rw [hh]
    rfl
  have hproceed : ∀ msg', (Hand.passing cs msg).msg? = some msg' →
      (l.crew.hand k).msg? = some msg' := by
    intro msg' hmsg'
    rw [hmsg]
    exact hmsg'
  simp only [step, note, hh, Crew.step, Crew.work_passing_cons hh]
  split
  next => exact (hl.receive hmsg c).proceed hproceed (l.crew.roster.push c msg).2
  next => exact hl.proceed hproceed (l.crew.roster.push c msg).2

theorem work (hl : l.Faithful count) (k : Nat) : (l.step (.work k)).Faithful count := by
  cases hh : l.crew.hand k with
  | empty => exact hl.fetch hh
  | holding job =>
    refine hl.quiet (by simp only [note, hh]) (Crew.work_holding hh) fun msg hmsg => ?_
    rw [hh]
    cases hr : l.crew.bucket.lookupRoom job.room with
    | none =>
      rw [hr] at hmsg
      cases hmsg
    | some r =>
      rw [hr] at hmsg
      exact hmsg
  | found r msg =>
    refine hl.quiet (by simp only [note, hh]) (Crew.work_found hh) fun msg' hmsg => ?_
    rw [hh]
    exact hmsg
  | passing cs msg =>
    cases cs with
    | nil =>
      refine hl.quiet (by simp only [note, hh]) (Crew.work_passing_nil hh) fun msg' hmsg => ?_
      cases hmsg
    | cons c cs => exact hl.pass hh

theorem step (hl : l.Faithful count) (hcount : 0 < count) (e : Crew.Step) :
    (l.step e).Faithful count := by
  cases e with
  | op op =>
    have hbucket := (Bucket.Undisturbed.act l.crew.bucket l.crew.roster op).bucket
    have hworkers : (l.crew.bucket.act l.crew.roster op).2.1.workerCount =
        l.crew.bucket.workerCount := by rw [hbucket]; rfl
    have hturn : (l.crew.bucket.act l.crew.roster op).2.1.turn = l.crew.bucket.turn := by
      rw [hbucket]
    refine ⟨hworkers.trans hl.workers, ?_, fun k => ?_, hl.receipts, hl.inOrder⟩
    · show (l.crew.bucket.act l.crew.roster op).2.1.turn.toNat = _
      rw [hturn]
      exact hl.turn
    · have hqueue : (l.crew.bucket.act l.crew.roster op).2.1.queue k = l.crew.bucket.queue k := by
        rw [hbucket]
        rfl
      show Line count l.calls k (l.crew.hand k)
        ((l.crew.bucket.act l.crew.roster op).2.1.queue k) (l.latest k) (l.waiting k)
      rw [hqueue]
      exact hl.lines k
  | call job => exact hl.call hcount job
  | work k => exact hl.work k
  | take | close => exact ⟨hl.workers, hl.turn, hl.lines, hl.receipts, hl.inOrder⟩

theorem after (hl : l.Faithful count) (hcount : 0 < count) (steps : List Crew.Step) :
    (l.after steps).Faithful count := by
  induction steps generalizing l with
  | nil => exact hl
  | cons e steps ih => exact ih (hl.step hcount e)

end Faithful

/-! ## Call order -/

/-- The rest that a number leaves tells the worker, until the turn starts again from 0. -/
theorem workerOf_eq_of_lt {n : Nat} (hn : n < 2 ^ 64) : workerOf count n = n % count := by
  rw [workerOf, Nat.mod_eq_of_lt hn]

/-- In the mailbox of a channel, messages of calls for the same worker are in call order. -/
theorem Faithful.receiptsOf_inOrder (hl : l.Faithful count) (c : ChannelRef) :
    (l.receiptsOf c).Pairwise fun x y =>
      workerOf count x.call = workerOf count y.call → x.call ≤ y.call :=
  hl.inOrder.filter _

theorem Faithful.lt_of_call_lt (hl : l.Faithful count) {x y : Receipt} {i j : Nat}
    (hx : (l.receiptsOf c)[i]? = some x) (hy : (l.receiptsOf c)[j]? = some y)
    (hcall : x.call < y.call) (hworker : workerOf count x.call = workerOf count y.call) :
    i < j := by
  have hordered := List.pairwise_iff_getElem.mp (hl.receiptsOf_inOrder c)
  obtain ⟨hi, rfl⟩ := List.getElem?_eq_some_iff.mp hx
  obtain ⟨hj, rfl⟩ := List.getElem?_eq_some_iff.mp hy
  by_contra hlt
  rcases Nat.lt_or_eq_of_le (Nat.le_of_not_lt hlt) with hji | rfl
  · exact absurd (hordered j i hj hi hji hworker.symm) (Nat.not_le_of_lt hcall)
  · exact Nat.lt_irrefl _ hcall

/-- A logbook tells what becomes of a bucket and of roster `s` in these steps: which calls were
made, whose jobs wait, and what each mailbox was given, each message under the number of a call that
brought it. -/
structure Tells (id : Nat) (config : BucketConfig) (s : Roster) (steps : List Crew.Step)
    (l : Logbook) : Prop where
  crew : l.crew = (Crew.new id config s).after steps
  calls : l.calls = steps.filterMap Crew.Step.call?
  waiting : ∀ k, (l.waiting k).map (l.calls[·]?) = (l.crew.bucket.queue k).map some
  receipts : ∀ x ∈ l.receipts, (l.calls[x.call]?).map Job.msg = some x.msg
  accounts : ∀ c, l.Accounted ((s.mailbox? c).elim [] Mailbox.waiting) c

/-- However the calls on a bucket, registrations, removals and the single steps of its workers come
between each other: if the numbers of two calls leave the same rest by the number of workers, every
mailbox that accepts both messages is given that of the earlier call first. So with one worker it is
given all messages in call order. A worker that waits, and that nobody comes between, does what it
does in a run of the relay. -/
theorem received_in_call_order (id : Nat) (config : BucketConfig) (s : Roster)
    (steps : List Crew.Step) :
    let count := max config.routineAmount 1
    let l := (new id config s).after steps
    l.Tells id config s steps ∧
    (∀ (c : ChannelRef) (i j : Nat) (x y : Receipt),
      (l.receiptsOf c)[i]? = some x → (l.receiptsOf c)[j]? = some y →
      x.call < y.call → y.call < 2 ^ 64 → x.call % count = y.call % count → i < j) ∧
    (config.routineAmount ≤ 1 →
      ∀ c : ChannelRef, (l.receiptsOf c).Pairwise fun x y => x.call ≤ y.call) ∧
    ∀ k : Nat, l.crew.hand k = .empty → ∃ n, l.crew.works k n = { l.crew with
      bucket := (l.crew.bucket.runWorker l.crew.roster k).1
      roster := (l.crew.bucket.runWorker l.crew.roster k).2 } := by
  intro count l
  have hcount : 0 < count := Nat.lt_of_lt_of_le Nat.one_pos (Nat.le_max_right _ _)
  have hl : l.Faithful count := (Faithful.new id config s).after hcount steps
  refine ⟨⟨?_, ?_, ?_, ?_, ?_⟩, ?_, ?_, ?_⟩
  · exact crew_after (new id config s) steps
  · exact calls_after (new id config s) steps
  · exact fun k => (hl.lines k).jobs
  · exact fun x hx => (hl.receipts x hx).1
  · exact fun c => (accounted_new id config s c).after steps
  · intro c i j x y hx hy hcall hbound hrest
    refine hl.lt_of_call_lt hx hy hcall ?_
    rw [workerOf_eq_of_lt (Nat.lt_trans hcall hbound), workerOf_eq_of_lt hbound]
    exact hrest
  · intro hone c
    have hone' : count = 1 := Nat.max_eq_right hone
    refine (hl.receiptsOf_inOrder c).imp fun {x y} hxy => hxy ?_
    rw [workerOf, workerOf, hone', Nat.mod_one, Nat.mod_one]
  · exact fun k hk => Crew.exists_works_eq_runWorker hk

/-- Three calls and two workers. The second worker is faster, so that the message of the second call
comes first, but that of the third call does not overtake that of the first one. -/
theorem received_in_call_order_overtaken :
    let msg (text : String) : Msg := ⟨1, .roomSend, ⟨0⟩, text⟩
    let call (text : String) : Crew.Step := .call ⟨⟨3⟩, msg text⟩
    let hands (k : Nat) : List Crew.Step := List.replicate 5 (.work k)
    let steps : List Crew.Step := [.op (.put ⟨9⟩ ⟨3⟩ ⟨0⟩), call "a", call "b", call "c"] ++
      hands 1 ++ [.work 0, .op (.put ⟨8⟩ ⟨3⟩ ⟨1⟩)] ++ hands 0 ++ hands 0
    let l := (new 0 ⟨1, 0, 0, 2, 2⟩ ⟨[.new 1 8, .new 2 8], []⟩).after steps
    let first : Receipt := ⟨0, ⟨0⟩, msg "a"⟩
    let third : Receipt := ⟨2, ⟨0⟩, msg "c"⟩
    l.receiptsOf ⟨0⟩ = [⟨1, ⟨0⟩, msg "b"⟩, first, third] ∧
      first.call < third.call ∧ third.call < 2 ^ 64 ∧ first.call % 2 = third.call % 2 ∧
      1 < 2 := by
  intro msg call hands steps l first third
  have hreceipts : l.receiptsOf ⟨0⟩ = [⟨1, ⟨0⟩, msg "b"⟩, first, third] := by decide +kernel
  have hfirst : (l.receiptsOf ⟨0⟩)[1]? = some first := by
    rw [hreceipts]
    rfl
  have hthird : (l.receiptsOf ⟨0⟩)[2]? = some third := by
    rw [hreceipts]
    rfl
  have hcall : first.call < third.call := by decide
  have hbound : third.call < 2 ^ 64 := by decide
  have hrest : first.call % max 2 1 = third.call % max 2 1 := by decide
  obtain ⟨-, horder, -⟩ := received_in_call_order 0 ⟨1, 0, 0, 2, 2⟩ ⟨[.new 1 8, .new 2 8], []⟩ steps
  exact ⟨hreceipts, hcall, hbound, by decide,
    horder ⟨0⟩ 1 2 first third hfirst hthird hcall hbound hrest⟩

end ChatRelay.Logbook
