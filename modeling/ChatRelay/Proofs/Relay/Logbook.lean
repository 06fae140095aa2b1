import ChatRelay.Proofs.Membership.Crew
import ChatRelay.Proofs.Relay.Provenance

/-!
# The logbook of a crew

Calls are numbered from the making of a bucket on, and those that are dropped count, too. A logbook
notes beside a crew which calls wait with each worker, which one a worker took up last, and which
mailbox has accepted which message. It changes nothing that the crew does (`crew_after`), and its
receipts account for all mail (`Accounted`).
-/

namespace ChatRelay

/-- The job of a call. -/
def Crew.Step.call? : Crew.Step → Option Job
  | call job => some job
  | op _ | work _ | take .. | close _ => none

/-- A message that a mailbox accepted, with the number of its call. -/
structure Receipt where
  call : Nat
  channel : ChannelRef
  msg : Msg
  deriving DecidableEq, Repr

/-- What is noted about a crew. -/
structure Logbook where
  crew : Crew
  /-- All calls; the number of a call is its place. -/
  calls : List Job
  /-- The calls that wait with each worker. -/
  waiting : Nat → List Nat
  /-- The call that each worker took up last. -/
  latest : Nat → Nat
  /-- What mailboxes accepted, in this order. -/
  receipts : List Receipt
  /-- What the writer of each channel has taken out. -/
  taken : ChannelRef → List Msg

namespace Logbook

variable {l : Logbook} {count k : Nat} {c : ChannelRef}

/-- An empty logbook for a bucket that was just made. -/
def new (id : Nat) (config : BucketConfig) (s : Roster) : Logbook :=
  ⟨.new id config s, [], fun _ => [], fun _ => 0, [], fun _ => []⟩

/-- Note what the crew's next step is about. -/
def note (l : Logbook) : Crew.Step → Logbook
  | .op _ | .close _ => l
  | .call job => { l with
      calls := l.calls ++ [job]
      waiting := fun k => l.waiting k ++ if l.crew.bucket.accepts k then [l.calls.length] else [] }
  | .work k =>
    match l.crew.hand k, l.waiting k with
    | .empty, n :: rest => { l with
        waiting := Function.update l.waiting k rest
        latest := Function.update l.latest k n }
    | .passing (c :: _) msg, _ =>
      if (l.crew.roster.push c msg).1 = .accepted then
        { l with receipts := l.receipts ++ [⟨l.latest k, c, msg⟩] }
      else l
    | _, _ => l
  | .take c n => { l with
      taken := Function.update l.taken c (l.taken c ++ (l.crew.roster.takeMail c n).1) }

def step (l : Logbook) (e : Crew.Step) : Logbook :=
  { l.note e with crew := l.crew.step e }

/-- The logbook after a list of steps. -/
def after (l : Logbook) (steps : List Crew.Step) : Logbook :=
  steps.foldl step l

/-- What the mailbox of a channel accepted. -/
def receiptsOf (l : Logbook) (c : ChannelRef) : List Receipt :=
  l.receipts.filter (·.channel = c)

theorem crew_after (l : Logbook) (steps : List Crew.Step) :
    (l.after steps).crew = l.crew.after steps := by
  induction steps generalizing l with
  | nil => rfl
  | cons e steps ih => exact ih (l.step e)

theorem calls_note (l : Logbook) (e : Crew.Step) :
    (l.note e).calls = l.calls ++ e.call?.toList := by
  cases e with
  | op | take | close => exact (List.append_nil _).symm
  | call job => rfl
  | work k =>
    unfold note
    rw [Crew.Step.call?, Option.toList_none, List.append_nil]
    dsimp only
    split
    next => rfl
    next => split <;> rfl
    next => rfl

theorem calls_after (l : Logbook) (steps : List Crew.Step) :
    (l.after steps).calls = l.calls ++ steps.filterMap Crew.Step.call? := by
  induction steps generalizing l with
  | nil => exact (List.append_nil _).symm
  | cons e steps ih =>
    change ((l.step e).after steps).calls = _
    rw [ih, List.filterMap_cons]
    change (l.note e).calls ++ _ = _
    rw [calls_note, List.append_assoc]
    cases e.call? <;> rfl

theorem receiptsOf_of_receipts {l' : Logbook} {receipts : List Receipt}
    (h : l'.receipts = l.receipts ++ receipts) (c : ChannelRef) :
    l'.receiptsOf c = l.receiptsOf c ++ receipts.filter (·.channel = c) := by
  rw [receiptsOf, h, List.filter_append]
  rfl

/-- Of a worker that offers nothing there is no receipt. -/
theorem note_work (h : ∀ c cs msg, l.crew.hand k ≠ .passing (c :: cs) msg) :
    (l.note (.work k)).receipts = l.receipts ∧ (l.note (.work k)).taken = l.taken := by
  unfold note
  dsimp only
  split
  next => exact ⟨rfl, rfl⟩
  next hh => exact absurd hh (h _ _ _)
  next => exact ⟨rfl, rfl⟩

/-! ## The accounts of the mailboxes -/

/-- What was taken out of the mailbox of a channel and what waits there is what waited at first and
what is noted as accepted, up to what a writer that has gone away left behind. -/
def Accounted (l : Logbook) (start : List Msg) (c : ChannelRef) : Prop :=
  MailChange.Accounts (l.crew.roster.mailbox? c) (l.taken c)
    (start ++ (l.receiptsOf c).map Receipt.msg)

theorem accounted_new (id : Nat) (config : BucketConfig) (s : Roster) (c : ChannelRef) :
    (new id config s).Accounted ((s.mailbox? c).elim [] Mailbox.waiting) c := by
  change MailChange.Accounts (s.mailbox? c) [] (_ ++ [])
  cases s.mailbox? c with
  | none => exact ⟨rfl, rfl⟩
  | some m => exact ⟨[], rfl, fun _ => rfl⟩

namespace Accounted

variable {l' : Logbook} {start taken accepted : List Msg}

theorem change (h : l.Accounted start c)
    (hm : MailChange 0 (l.crew.roster.mailbox? c) taken accepted (l'.crew.roster.mailbox? c))
    (htaken : l'.taken c = l.taken c ++ taken)
    (haccepted : (l'.receiptsOf c).map Receipt.msg =
      (l.receiptsOf c).map Receipt.msg ++ accepted) : l'.Accounted start c := by
  unfold Accounted at h ⊢
  rw [htaken, haccepted, ← List.append_assoc]
  exact hm.accounts h

/-- Nothing is taken and nothing accepted. -/
theorem silent (h : l.Accounted start c)
    (hm : MailChange 0 (l.crew.roster.mailbox? c) [] [] (l'.crew.roster.mailbox? c))
    (htaken : l'.taken c = l.taken c) (hreceipts : l'.receiptsOf c = l.receiptsOf c) :
    l'.Accounted start c := by
  refine h.change hm ?_ ?_
  · rw [htaken, List.append_nil]
  · rw [hreceipts, List.append_nil]

theorem take (h : l.Accounted start c) (c' : ChannelRef) (n : Nat) :
    (l.step (.take c' n)).Accounted start c := by
  have hmailbox : (l.step (.take c' n)).crew.roster.mailbox? c =
      if c = c' then (l.crew.roster.mailbox? c).map fun m => (m.take n).2
      else l.crew.roster.mailbox? c := by
    show (l.crew.roster.takeMail c' n).2.mailbox? c = _
    rw [Roster.takeMail_snd, Roster.mailbox?_mailOf]
  have htaken : (l.step (.take c' n)).taken = Function.update l.taken c'
      (l.taken c' ++ (l.crew.roster.takeMail c' n).1) := rfl
  by_cases hc : c = c'
  · subst hc
    rw [if_pos rfl] at hmailbox
    have htaken' : (l.step (.take c n)).taken c =
        l.taken c ++ (l.crew.roster.mailbox? c).elim [] fun m => (m.take n).1 := by
      rw [htaken, Function.update_self, Roster.takeMail_fst]
    refine h.change ?_ htaken' (List.append_nil _).symm
    rw [hmailbox]
    cases l.crew.roster.mailbox? c with
    | none => exact .keep
    | some m => exact .taken
  · rw [if_neg hc] at hmailbox
    refine h.silent (.of_eq hmailbox) ?_ rfl
    rw [htaken, Function.update_of_ne hc]

theorem close (h : l.Accounted start c) (c' : ChannelRef) :
    (l.step (.close c')).Accounted start c := by
  have hmailbox : (l.step (.close c')).crew.roster.mailbox? c =
      if c = c' then (l.crew.roster.mailbox? c).map Mailbox.close
      else l.crew.roster.mailbox? c := by
    show (l.crew.roster.closeMailbox c').mailbox? c = _
    rw [Roster.closeMailbox_eq, Roster.mailbox?_mailOf]
  refine h.silent ?_ rfl rfl
  rw [hmailbox]
  split
  next =>
    cases l.crew.roster.mailbox? c with
    | none => exact .keep
    | some m => exact .closed
  next => exact .keep

theorem offer (h : l.Accounted start c) {c' : ChannelRef} {cs : List ChannelRef} {msg : Msg}
    (hh : l.crew.hand k = .passing (c' :: cs) msg) : (l.step (.work k)).Accounted start c := by
  have hmailbox : (l.step (.work k)).crew.roster.mailbox? c =
      if c = c' then (l.crew.roster.mailbox? c).map fun m => (m.offer msg).2
      else l.crew.roster.mailbox? c := by
    show (l.crew.work k).roster.mailbox? c = _
    rw [Crew.work_passing_cons hh, Roster.push_snd, Roster.mailbox?_mailOf]
  have htaken : (l.step (.work k)).taken = l.taken := by
    simp only [step, note, hh]
    split <;> rfl
  have hreceipts : (l.step (.work k)).receipts = l.receipts ++
      if (l.crew.roster.push c' msg).1 = .accepted then [⟨l.latest k, c', msg⟩] else [] := by
    simp only [step, note, hh]
    split
    next => rfl
    next => exact (List.append_nil _).symm
  have hreceiptsOf := receiptsOf_of_receipts hreceipts c
  by_cases hc : c = c'
  · subst hc
    rw [if_pos rfl] at hmailbox
    have haccepted : ((l.step (.work k)).receiptsOf c).map Receipt.msg =
        (l.receiptsOf c).map Receipt.msg ++
          if (l.crew.roster.push c msg).1 = .accepted then [msg] else [] := by
      rw [hreceiptsOf, List.map_append]
      split <;> simp
    refine h.change ?_ ((congrFun htaken c).trans (List.append_nil _).symm) haccepted
    rw [hmailbox, Roster.push_fst_eq_elim]
    cases l.crew.roster.mailbox? c with
    | none => exact .keep
    | some m => exact .offered
  · rw [if_neg hc] at hmailbox
    refine h.silent (.of_eq hmailbox) (congrFun htaken c) ?_
    rw [hreceiptsOf]
    split <;> simp [Ne.symm hc]

theorem step (h : l.Accounted start c) (e : Crew.Step) : (l.step e).Accounted start c := by
  cases e with
  | op op =>
    have hact := Bucket.Undisturbed.act l.crew.bucket l.crew.roster op
    exact h.silent (.of_eq (hact.mailbox c)) rfl rfl
  | call job => exact h
  | take c' n => exact h.take c' n
  | close c' => exact h.close c'
  | work k =>
    by_cases hoffer : ∃ c' cs msg, l.crew.hand k = .passing (c' :: cs) msg
    · obtain ⟨c', cs, msg, hh⟩ := hoffer
      exact h.offer hh
    · have hquiet : ∀ c' cs msg, l.crew.hand k ≠ .passing (c' :: cs) msg :=
        fun c' cs msg hh => hoffer ⟨c', cs, msg, hh⟩
      obtain ⟨hreceipts, htaken⟩ := note_work hquiet
      refine h.silent (.of_eq ?_) (congrFun htaken c) ?_
      · show (l.crew.work k).roster.mailbox? c = l.crew.roster.mailbox? c
        rw [Crew.roster_work hquiet]
      · show (l.note (.work k)).receipts.filter _ = l.receipts.filter _
        rw [hreceipts]

end Accounted

theorem Accounted.after {start : List Msg} (h : l.Accounted start c) (steps : List Crew.Step) :
    (l.after steps).Accounted start c := by
  induction steps generalizing l with
  | nil => exact h
  | cons e steps ih => exact ih (h.step e)

end Logbook

end ChatRelay
