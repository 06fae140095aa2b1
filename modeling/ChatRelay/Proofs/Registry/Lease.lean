import ChatRelay.Config.Basic
import ChatRelay.Proofs.Registry.Tenure
import Mathlib.Data.List.Nodup

/-!
# Entries that are kept announced

It is taken that nobody else writes to the keys of a keeper, that its first announcement succeeds,
that no entry is missed by two refreshes in a row, and that the surroundings are prompt: the first
announcement, the wait until the keeper is woken and the calls of a round fit into one interval
together. Less will not do, since the second round, two intervals after the first announcement, must
reach a key before its lifetime of three intervals is over.

Then every key is there from when it is announced until the keeper sees the request to stop; and
once the calls are made that are then left, none is there, and no call is ever made again
(`lease_continuity`). While the keeper runs, every key has a deadline that lies a lifetime behind
the last round, less one interval for a refresh that the round has still to make, one for a refresh
that was missed, and the time of the first announcement (`Running.leased`).
-/

namespace ChatRelay.Redis

variable {σ : Type} {b : Backend σ} {view : σ → Keyspace} {IsUp : σ → Prop} {a : Announcer}
  {p : Pace} {t t' : Tenure σ} {began rounds looked : Nat} {todo : List ServiceEntry}

/-! ## Calls -/

/-- What a call that is not a withdrawal leaves behind lasts for a lifetime from now on. -/
theorem Announcer.holdsUntil_leaseEnd (a : Announcer) (ks : Keyspace) (action : RegistryAction)
    (h : action.verb ≠ .deregister) :
    (ks.set (action.entry.key a.basePath) (a.leaves ks action)).HoldsUntil
      (action.entry.key a.basePath) (a.leaseEnd ks) := by
  obtain ⟨text?, hleaves⟩ := a.leaves_of_ne_deregister ks h
  rw [hleaves]
  exact .set_self rfl (Nat.le_refl _)

namespace Documented

variable {s s' : σ} {action : RegistryAction} {outcome : Except Failure Unit}

theorem holdsUntil_act (hb : Documented b view IsUp)
    (hact : a.act b action s = (.ok (), s')) (h : action.verb ≠ .deregister) :
    (view s').HoldsUntil (action.entry.key a.basePath) (a.leaseEnd (view s)) := by
  obtain hview | ⟨hfailed, -⟩ := hb.view_act hact
  · rw [hview]
    exact a.holdsUntil_leaseEnd _ _ h
  · exact absurd rfl hfailed

theorem holdsUntil_act_of_ne (hb : Documented b view IsUp) (hact : a.act b action s = (outcome, s'))
    {key : String} (hne : key ≠ action.entry.key a.basePath) {time : Nat}
    (h : (view s).HoldsUntil key time) : (view s').HoldsUntil key time :=
  h.congr (hb.now_act hact) (hb.holding?_act_of_ne hact hne)

end Documented

/-! ## The first announcement -/

/-- A keeper that has begun its first announcement, and has still to announce `todo`. -/
structure Announcing (view : σ → Keyspace) (a : Announcer) (p : Pace) (t : Tenure σ) (looked : Nat)
    (todo : List ServiceEntry) : Prop where
  phase_eq : t.keeper.phase = .announcing
  isDismissed : t.isDismissed = false
  pending_eq : t.pending = RegistryAction.each .register todo
  suffix : todo <:+ t.keeper.entries
  looked_eq : t.looked? = some looked
  looked_le : looked ≤ (view t.server).now
  prompt : (view t.server).now ≤ looked + p.announcing
  announced : ∀ e ∈ t.keeper.entries, e ∈ todo ∨ (⟨.register, e⟩, .ok ()) ∈ t.log
  leased : ∀ e ∈ t.keeper.entries, (⟨.register, e⟩, .ok ()) ∈ t.log →
    (view t.server).HoldsUntil (e.key a.basePath) (looked + a.lifetime / 1000 * second)

namespace Announcing

theorem elsewhere (h : Announcing view a p t looked todo) {s' : σ}
    (hnow : (view t.server).now ≤ (view s').now) (hprompt : t.IsPrompt p (view s').now)
    (halone : ∀ e ∈ t.keeper.entries, (view t.server).LeftAlone (e.key a.basePath) (view s')) :
    Announcing view a p { t with server := s' } looked todo where
  phase_eq := h.phase_eq
  isDismissed := h.isDismissed
  pending_eq := h.pending_eq
  suffix := h.suffix
  looked_eq := h.looked_eq
  looked_le := Nat.le_trans h.looked_le hnow
  prompt := by
    have hpatience : t.patience p = p.announcing := if_pos h.phase_eq
    exact hpatience ▸ hprompt h.isDismissed looked h.looked_eq
  announced := h.announced
  leased e he hlog := (h.leased e he hlog).leftAlone (halone e he)

theorem done (hb : Documented b view IsUp) (h : Announcing view a p t looked todo)
    (hkeys : (t.keeper.entries.map (·.key a.basePath)).Nodup) {action : RegistryAction}
    {rest : List RegistryAction} {s' : σ} (hpending : t.pending = action :: rest)
    (hact : a.act b action t.server = (.ok (), s')) : ∃ todo', Announcing view a p
      { t with
        server := s'
        pending := rest
        log := t.log ++ [(action, .ok ())]
        missed := t.missed.filter (· ≠ action.entry) } looked todo' := by
  rw [h.pending_eq] at hpending
  obtain ⟨e, todo', rfl, rfl, rfl⟩ := List.map_eq_cons_iff.mp hpending
  have hnow := hb.now_act hact
  have he : e ∈ t.keeper.entries := h.suffix.mem List.mem_cons_self
  refine ⟨todo', h.phase_eq, h.isDismissed, rfl, (List.suffix_cons e todo').trans h.suffix,
    h.looked_eq, hnow ▸ h.looked_le, hnow ▸ h.prompt, ?_, ?_⟩
  · intro e' he'
    obtain htodo | hlog := h.announced e' he'
    · obtain rfl | htodo := List.mem_cons.mp htodo
      · exact .inr (List.mem_append_right _ List.mem_cons_self)
      · exact .inl htodo
    · exact .inr (List.mem_append_left _ hlog)
  · intro e' he' hlog
    by_cases hne : e' = e
    · -- the key was written now, and not before the keeper looked at the clock
      subst hne
      have hholds := hb.holdsUntil_act hact (by exact nofun)
      refine hholds.mono ?_
      exact Nat.add_le_add_right h.looked_le _
    · have hkey : e'.key a.basePath ≠ e.key a.basePath := fun hkey =>
        hne (List.inj_on_of_nodup_map hkeys he' he hkey)
      have hbefore : (⟨.register, e'⟩, .ok ()) ∈ t.log := by
        simpa [hne] using hlog
      exact hb.holdsUntil_act_of_ne hact hkey (h.leased e' he' hbefore)

end Announcing

/-- A keeper that runs for the first time announces its entries. -/
theorem announcing_of_waiting (hphase : t.keeper.phase = .waiting)
    (hdismissed : t.isDismissed = false) (hlog : t.log = []) : Announcing view a p
      { t with
        keeper := (t.keeper.run (view t.server).now).2
        pending := (t.keeper.run (view t.server).now).1
        looked? := some (view t.server).now } (view t.server).now t.keeper.entries := by
  rw [Keeper.run_of_waiting _ hphase]
  refine ⟨rfl, hdismissed, rfl, List.suffix_refl _, rfl, Nat.le_refl _, Nat.le_add_right _ _,
    fun e he => .inl he, fun e _ hmem => ?_⟩
  rw [hlog] at hmem
  cases hmem

/-! ## The rounds -/

/-- The calls that a key's deadline lacks: the one that this round has still to make, and one that
was missed. -/
def lacking (todo missed : List ServiceEntry) (e : ServiceEntry) : Nat :=
  (if e ∈ todo then 1 else 0) + if e ∈ missed then 1 else 0

theorem lacking_le_two (todo missed : List ServiceEntry) (e : ServiceEntry) :
    lacking todo missed e ≤ 2 := by
  rw [lacking]
  split_ifs <;> omega

theorem lacking_nil_le_one (missed : List ServiceEntry) (e : ServiceEntry) :
    lacking [] missed e ≤ 1 := by
  rw [lacking, if_neg List.not_mem_nil]
  split_ifs <;> omega

/-- What is still to be treated lacks one call more. -/
theorem lacking_of_mem {todo : List ServiceEntry} {e : ServiceEntry} (h : e ∈ todo)
    (missed : List ServiceEntry) : lacking todo missed e = lacking [] missed e + 1 := by
  rw [lacking, lacking, if_pos h, if_neg List.not_mem_nil]
  omega

/-- A keeper that started its ticker when it `began` and has begun so many rounds, of which the last
one has still to treat `todo`. It last looked at the clock after this round was due and before the
next one is, and soon after it was due if there is something to do. -/
structure Running (view : σ → Keyspace) (a : Announcer) (p : Pace) (t : Tenure σ)
    (began rounds looked : Nat) (todo : List ServiceEntry) : Prop where
  phase_eq : t.keeper.phase = .running began rounds
  isDismissed : t.isDismissed = false
  pending_eq : t.pending = RegistryAction.each .refresh todo
  suffix : todo <:+ t.keeper.entries
  looked_eq : t.looked? = some looked
  due : began + rounds * t.keeper.interval ≤ looked
  lt_next : looked < began + (rounds + 1) * t.keeper.interval
  soon : todo ≠ [] → looked < began + rounds * t.keeper.interval + p.waking
  looked_le : looked ≤ (view t.server).now
  prompt : (view t.server).now ≤ looked + if todo = [] then p.waking else p.calling
  announced : t.IsAnnounced t.keeper.entries
  leased : ∀ e ∈ t.keeper.entries, ∃ time, (view t.server).HoldsUntil (e.key a.basePath) time ∧
    began + rounds * t.keeper.interval + a.lifetime / 1000 * second ≤
      time + lacking todo t.missed e * t.keeper.interval + p.announcing

namespace Running

theorem pending_eq_nil_iff (h : Running view a p t began rounds looked todo) :
    t.pending = [] ↔ todo = [] := by
  rw [h.pending_eq, RegistryAction.each_eq_nil_iff]

theorem patience_eq (h : Running view a p t began rounds looked todo) :
    t.patience p = if todo = [] then p.waking else p.calling := by
  have hphase : t.keeper.phase ≠ .announcing := by
    rw [h.phase_eq]
    nofun
  simp only [Tenure.patience, if_neg hphase, h.pending_eq_nil_iff]

/-- Every key is there. -/
theorem holding (h : Running view a p t began rounds looked todo)
    (hlifetime : 3 * t.keeper.interval ≤ a.lifetime / 1000 * second)
    (hpace : p.announcing + p.waking + p.calling ≤ t.keeper.interval) {e : ServiceEntry}
    (he : e ∈ t.keeper.entries) :
    ((view t.server).holding? (e.key a.basePath)).isSome = true := by
  obtain ⟨time, hholds, hleased⟩ := h.leased e he
  refine hholds.isSome ?_
  have hprompt := h.prompt
  have hnext := h.lt_next
  rw [Nat.succ_mul] at hnext
  by_cases htodo : todo = []
  · -- the next round is not due yet, and one refresh may have been missed
    subst htodo
    rw [if_pos rfl] at hprompt
    have hlacking := Nat.mul_le_mul_right t.keeper.interval (lacking_nil_le_one t.missed e)
    omega
  · -- the round was due just now, and two refreshes may be wanting
    rw [if_neg htodo] at hprompt
    have hsoon := h.soon htodo
    have hlacking := Nat.mul_le_mul_right t.keeper.interval (lacking_le_two todo t.missed e)
    omega

/-- Time passes while nobody writes to the keys. -/
theorem elsewhere (h : Running view a p t began rounds looked todo) {s' : σ}
    (hnow : (view t.server).now ≤ (view s').now) (hprompt : t.IsPrompt p (view s').now)
    (halone : ∀ e ∈ t.keeper.entries, (view t.server).LeftAlone (e.key a.basePath) (view s')) :
    Running view a p { t with server := s' } began rounds looked todo where
  phase_eq := h.phase_eq
  isDismissed := h.isDismissed
  pending_eq := h.pending_eq
  suffix := h.suffix
  looked_eq := h.looked_eq
  due := h.due
  lt_next := h.lt_next
  soon := h.soon
  looked_le := Nat.le_trans h.looked_le hnow
  prompt := h.patience_eq ▸ hprompt h.isDismissed looked h.looked_eq
  announced := h.announced
  leased e he := by
    obtain ⟨time, hholds, hleased⟩ := h.leased e he
    exact ⟨time, hholds.leftAlone (halone e he), hleased⟩

/-- The round that is due is the next one at most. -/
theorem run_cases (h : Running view a p t began rounds looked todo)
    (hwaking : p.waking ≤ t.keeper.interval) (hidle : t.pending = []) :
    t.keeper.run (view t.server).now = ([], t.keeper) ∧
      (view t.server).now < began + (rounds + 1) * t.keeper.interval ∨
    t.keeper.run (view t.server).now = (RegistryAction.each .refresh t.keeper.entries,
        { t.keeper with phase := .running began (rounds + 1) }) ∧
      began + (rounds + 1) * t.keeper.interval ≤ (view t.server).now := by
  have hdue := h.due
  have hnext := h.lt_next
  have hle := h.looked_le
  have hprompt := h.prompt
  rw [if_pos (h.pending_eq_nil_iff.mp hidle)] at hprompt
  rw [Keeper.run_of_running _ h.phase_eq]
  generalize hsince : (view t.server).now - began = since
  obtain hround | hround :
      (view t.server).now < began + (rounds + 1) * t.keeper.interval ∨
      began + (rounds + 1) * t.keeper.interval ≤ (view t.server).now := Nat.lt_or_ge _ _
  · have hdiv : since / t.keeper.interval ≤ rounds := by
      refine Nat.lt_succ_iff.mp (Nat.div_lt_of_lt_mul ?_)
      show since < t.keeper.interval * (rounds + 1)
      rw [Nat.mul_comm]
      omega
    rw [Nat.sub_eq_zero_of_le hdiv, Nat.max_eq_right hdiv, ← h.phase_eq]
    exact .inl ⟨rfl, hround⟩
  · have hdiv : since / t.keeper.interval = rounds + 1 := by
      refine Nat.div_eq_of_lt_le ?_ ?_
      · omega
      · show since < (rounds + 1 + 1) * t.keeper.interval
        rw [Nat.succ_mul (rounds + 1)]
        omega
    rw [hdiv, Nat.add_sub_cancel_left, Nat.max_eq_left (Nat.le_succ rounds)]
    exact .inr ⟨by simp, hround⟩

/-- A keeper that looks at the clock begins the round that is due, if there is one. -/
theorem wake (h : Running view a p t began rounds looked todo)
    (hwaking : p.waking ≤ t.keeper.interval) (hidle : t.pending = []) :
    ∃ rounds' todo', Running view a p
      { t with
        keeper := (t.keeper.run (view t.server).now).2
        pending := (t.keeper.run (view t.server).now).1
        looked? := some (view t.server).now } began rounds' (view t.server).now todo' := by
  have htodo := h.pending_eq_nil_iff.mp hidle
  subst htodo
  have hprompt := h.prompt
  rw [if_pos rfl] at hprompt
  have hnext := h.lt_next
  obtain ⟨hrun, hearly⟩ | ⟨hrun, hdue⟩ := h.run_cases hwaking hidle
  · rw [hrun]
    exact ⟨rounds, [], h.phase_eq, h.isDismissed, rfl, List.nil_suffix, rfl,
      Nat.le_trans h.due h.looked_le, hearly, fun hne => absurd rfl hne, Nat.le_refl _,
      Nat.le_add_right _ _, h.announced, h.leased⟩
  rw [hrun]
  refine ⟨rounds + 1, t.keeper.entries, rfl, h.isDismissed, rfl, List.suffix_refl _, rfl, hdue,
    ?_, fun _ => ?_, Nat.le_refl _, Nat.le_add_right _ _, h.announced, fun e he => ?_⟩
  · show (view t.server).now < began + (rounds + 1 + 1) * t.keeper.interval
    rw [Nat.succ_mul]
    omega
  · show (view t.server).now < began + (rounds + 1) * t.keeper.interval + p.waking
    omega
  · obtain ⟨time, hholds, hleased⟩ := h.leased e he
    refine ⟨time, hholds, ?_⟩
    show began + (rounds + 1) * t.keeper.interval + _ ≤
      time + lacking t.keeper.entries t.missed e * t.keeper.interval + p.announcing
    rw [lacking_of_mem he, Nat.succ_mul, Nat.succ_mul]
    omega

/-- A call on the first entry that is to be treated, after which the others are. The keys of the
others last as long as they did. -/
theorem call (hb : Documented b view IsUp) (h : Running view a p t began rounds looked todo)
    (hkeys : (t.keeper.entries.map (·.key a.basePath)).Nodup) {e : ServiceEntry}
    {rest : List ServiceEntry} (htodo : todo = e :: rest) {outcome : Except Failure Unit} {s' : σ}
    (hact : a.act b ⟨.refresh, e⟩ t.server = (outcome, s')) {missed' : List ServiceEntry}
    (hmissed : ∀ e' ≠ e, (e' ∈ missed' ↔ e' ∈ t.missed)) {time : Nat}
    (hholds : (view s').HoldsUntil (e.key a.basePath) time)
    (hleased : began + rounds * t.keeper.interval + a.lifetime / 1000 * second ≤
      time + lacking rest missed' e * t.keeper.interval + p.announcing) :
    Running view a p
      { t with
        server := s'
        pending := RegistryAction.each .refresh rest
        log := t.log ++ [(⟨.refresh, e⟩, outcome)]
        missed := missed' } began rounds looked rest := by
  subst htodo
  have hnow := hb.now_act hact
  have he : e ∈ t.keeper.entries := h.suffix.mem List.mem_cons_self
  have hprompt := h.prompt
  rw [if_neg (List.cons_ne_nil e rest)] at hprompt
  refine ⟨h.phase_eq, h.isDismissed, rfl, (List.suffix_cons e rest).trans h.suffix, h.looked_eq,
    h.due, h.lt_next, fun _ => h.soon (List.cons_ne_nil e rest), hnow ▸ h.looked_le, ?_,
    fun e' he' => List.mem_append_left _ (h.announced e' he'), fun e' he' => ?_⟩
  · have hcalling := p.calling_le
    rw [hnow]
    split_ifs <;> omega
  · by_cases hne : e' = e
    · subst hne
      exact ⟨time, hholds, hleased⟩
    have hlacking : lacking rest missed' e' = lacking (e :: rest) t.missed e' := by
      simp only [lacking, List.mem_cons, hne, false_or, hmissed e' hne]
    have hkey : e'.key a.basePath ≠ e.key a.basePath := fun hkey =>
      hne (List.inj_on_of_nodup_map hkeys he' he hkey)
    obtain ⟨time', hholds', hleased'⟩ := h.leased e' he'
    exact ⟨time', hb.holdsUntil_act_of_ne hact hkey hholds', hlacking ▸ hleased'⟩

/-- A key that is written now lacks nothing. -/
theorem le_leaseEnd (h : Running view a p t began rounds looked todo) (lacks : Nat) :
    began + rounds * t.keeper.interval + a.lifetime / 1000 * second ≤
      a.leaseEnd (view t.server) + lacks * t.keeper.interval + p.announcing := by
  have hdue := h.due
  have hle := h.looked_le
  rw [Announcer.leaseEnd]
  omega

theorem done (hb : Documented b view IsUp) (h : Running view a p t began rounds looked todo)
    (hkeys : (t.keeper.entries.map (·.key a.basePath)).Nodup) {action : RegistryAction}
    {rest : List RegistryAction} {s' : σ} (hpending : t.pending = action :: rest)
    (hact : a.act b action t.server = (.ok (), s')) : ∃ todo', Running view a p
      { t with
        server := s'
        pending := rest
        log := t.log ++ [(action, .ok ())]
        missed := t.missed.filter (· ≠ action.entry) } began rounds looked todo' := by
  rw [h.pending_eq] at hpending
  obtain ⟨e, todo', htodo, rfl, rfl⟩ := List.map_eq_cons_iff.mp hpending
  have hholds := hb.holdsUntil_act hact (by exact nofun)
  exact ⟨todo', h.call hb hkeys htodo hact (fun e' hne => by simp [hne]) hholds (h.le_leaseEnd _)⟩

theorem miss (hb : Documented b view IsUp) (h : Running view a p t began rounds looked todo)
    (hkeys : (t.keeper.entries.map (·.key a.basePath)).Nodup) {e : ServiceEntry}
    {rest : List RegistryAction} {f : Failure} {s' : σ}
    (hpending : t.pending = ⟨.refresh, e⟩ :: rest) (hlast : e ∉ t.missed)
    (hact : a.act b ⟨.refresh, e⟩ t.server = (.error f, s')) : ∃ todo', Running view a p
      { t with
        server := s'
        pending := rest
        log := t.log ++ [(⟨.refresh, e⟩, .error f)]
        missed := e :: t.missed } began rounds looked todo' := by
  rw [h.pending_eq] at hpending
  obtain ⟨e', todo', htodo, heq, rfl⟩ := List.map_eq_cons_iff.mp hpending
  obtain ⟨-, rfl⟩ := RegistryAction.mk.inj heq
  have hothers : ∀ e'' ≠ e', (e'' ∈ e' :: t.missed ↔ e'' ∈ t.missed) := by
    intro e'' hne
    simp [hne]
  refine ⟨todo', ?_⟩
  obtain hview | ⟨-, hview⟩ := hb.view_act hact
  · have hholds := a.holdsUntil_leaseEnd (view t.server) ⟨.refresh, e'⟩ (by exact nofun)
    rw [← hview] at hholds
    exact h.call hb hkeys htodo hact hothers hholds (h.le_leaseEnd _)
  · -- what the round was to add, the key now lacks for the miss
    have he : e' ∈ t.keeper.entries := h.suffix.mem (htodo ▸ List.mem_cons_self)
    have hlacking : lacking todo t.missed e' ≤ lacking todo' (e' :: t.missed) e' := by
      simp only [lacking, htodo, List.mem_cons_self, if_true, if_neg hlast]
      omega
    have hmul := Nat.mul_le_mul_right t.keeper.interval hlacking
    obtain ⟨time, hholds, hleased⟩ := h.leased e' he
    exact h.call hb hkeys htodo hact hothers (hview ▸ hholds) (by omega)

end Running

/-- A keeper that has announced its entries starts its ticker. -/
theorem Announcing.wake (h : Announcing view a p t looked todo) (hpos : t.keeper.interval ≠ 0)
    (hidle : t.pending = []) : Running view a p
      { t with
        keeper := (t.keeper.run (view t.server).now).2
        pending := (t.keeper.run (view t.server).now).1
        looked? := some (view t.server).now } (view t.server).now 0 (view t.server).now [] := by
  have htodo : todo = [] := RegistryAction.each_eq_nil_iff.mp (h.pending_eq ▸ hidle)
  subst htodo
  rw [Keeper.run_of_announcing _ h.phase_eq hpos]
  have hannounced : t.IsAnnounced t.keeper.entries := fun e he =>
    (h.announced e he).resolve_left List.not_mem_nil
  refine ⟨rfl, h.isDismissed, rfl, List.nil_suffix, rfl, by simp, ?_, fun hne => absurd rfl hne,
    Nat.le_refl _, Nat.le_add_right _ _, hannounced, fun e he => ?_⟩
  · show (view t.server).now < (view t.server).now + (0 + 1) * t.keeper.interval
    omega
  · have hprompt := h.prompt
    refine ⟨_, h.leased e he (hannounced e he), ?_⟩
    show (view t.server).now + 0 * t.keeper.interval + _ ≤ _
    omega

/-! ## The withdrawal -/

/-- A keeper that knows that it is to stop: it has still to do `before`, and then to withdraw
`todo`. -/
structure Withdrawing (view : σ → Keyspace) (a : Announcer) (t : Tenure σ)
    (before : List RegistryAction) (todo : List ServiceEntry) : Prop where
  phase_eq : t.keeper.phase = .stopped
  isDismissed : t.isDismissed = true
  pending_eq : t.pending = before ++ RegistryAction.each .deregister todo
  gone : ∀ e ∈ t.keeper.entries,
    e ∈ todo ∨ before = [] ∧ (view t.server).holding? (e.key a.basePath) = none

namespace Withdrawing

variable {before : List RegistryAction}

theorem holding?_eq_none (h : Withdrawing view a t before todo) (hdone : t.pending = [])
    {e : ServiceEntry} (he : e ∈ t.keeper.entries) :
    (view t.server).holding? (e.key a.basePath) = none := by
  have hpending := h.pending_eq
  rw [hdone, eq_comm, List.append_eq_nil_iff, RegistryAction.each_eq_nil_iff] at hpending
  obtain htodo | ⟨-, hgone⟩ := h.gone e he
  · rw [hpending.2] at htodo
    cases htodo
  · exact hgone

theorem elsewhere (h : Withdrawing view a t before todo) {s' : σ}
    (halone : ∀ e ∈ t.keeper.entries, (view t.server).LeftAlone (e.key a.basePath) (view s')) :
    Withdrawing view a { t with server := s' } before todo where
  phase_eq := h.phase_eq
  isDismissed := h.isDismissed
  pending_eq := h.pending_eq
  gone e he := (h.gone e he).imp_right fun ⟨hbefore, hgone⟩ =>
    ⟨hbefore, (halone e he).holding?_eq_none hgone⟩

/-- What was due before the withdrawal comes to its end, whatever it leaves behind. -/
theorem before_cons (h : Withdrawing view a t before todo) {action : RegistryAction}
    {before' : List RegistryAction} (hbefore : before = action :: before') (s' : σ)
    (log' : List (RegistryAction × Except Failure Unit)) (missed' : List ServiceEntry) :
    Withdrawing view a
      { t with
        server := s'
        pending := before' ++ RegistryAction.each .deregister todo
        log := log'
        missed := missed' } before' todo where
  phase_eq := h.phase_eq
  isDismissed := h.isDismissed
  pending_eq := rfl
  gone e he := .inl ((h.gone e he).resolve_right fun hgone => by
    rw [hbefore] at hgone
    cases hgone.1)

theorem done (hb : Documented b view IsUp) (h : Withdrawing view a t before todo)
    {action : RegistryAction} {rest : List RegistryAction} {s' : σ}
    (hpending : t.pending = action :: rest) (hact : a.act b action t.server = (.ok (), s'))
    (log' : List (RegistryAction × Except Failure Unit)) (missed' : List ServiceEntry) :
    ∃ before' todo', Withdrawing view a
      { t with server := s', pending := rest, log := log', missed := missed' } before' todo' := by
  rw [h.pending_eq] at hpending
  obtain ⟨hbefore, hwithdrawn⟩ | ⟨before', hbefore, rfl⟩ := List.append_eq_cons_iff.mp hpending
  · obtain ⟨e, todo', rfl, rfl, rfl⟩ := List.map_eq_cons_iff.mp hwithdrawn
    refine ⟨[], todo', h.phase_eq, h.isDismissed, rfl, fun e' he' => ?_⟩
    obtain hview | ⟨hfailed, -⟩ := hb.view_act hact
    · show e' ∈ todo' ∨ _ ∧ (view s').holding? _ = none
      rw [hview, Keyspace.holding?_set]
      obtain htodo | ⟨-, hgone⟩ := h.gone e' he'
      · obtain rfl | htodo := List.mem_cons.mp htodo
        · exact .inr ⟨rfl, if_pos rfl⟩
        · exact .inl htodo
      · refine .inr ⟨rfl, ?_⟩
        split_ifs
        · rfl
        · exact hgone
    · exact absurd rfl hfailed
  · exact ⟨before', todo, h.before_cons hbefore s' log' missed'⟩

theorem miss (h : Withdrawing view a t before todo) {e : ServiceEntry}
    {rest : List RegistryAction} (hpending : t.pending = ⟨.refresh, e⟩ :: rest) (s' : σ)
    (log' : List (RegistryAction × Except Failure Unit)) (missed' : List ServiceEntry) :
    ∃ before', Withdrawing view a
      { t with server := s', pending := rest, log := log', missed := missed' } before' todo := by
  rw [h.pending_eq] at hpending
  obtain ⟨-, hwithdrawn⟩ | ⟨before', hbefore, rfl⟩ := List.append_eq_cons_iff.mp hpending
  · obtain ⟨_, _, _, heq, -⟩ := List.map_eq_cons_iff.mp hwithdrawn
    cases heq
  · exact ⟨before', h.before_cons hbefore s' log' missed'⟩

end Withdrawing

/-- A keeper that sees the request to stop does what is due first. -/
theorem withdrawing_of_stop (hphase : t.keeper.phase ≠ .stopped) (hpos : t.keeper.interval ≠ 0) :
    Withdrawing view a
      { t with
        keeper := (t.keeper.stop (view t.server).now).2
        pending := (t.keeper.stop (view t.server).now).1
        isDismissed := true } (t.keeper.run (view t.server).now).1 t.keeper.entries := by
  have hrunning := Keeper.run_phase_ne_stopped (view t.server).now hphase hpos
  refine ⟨Keeper.stop_phase _ _, rfl, ?_, fun e he => .inl (t.keeper.stop_entries _ ▸ he)⟩
  show (t.keeper.stop (view t.server).now).1 = _
  rw [Keeper.stop_eq, if_neg hrunning, if_neg hpos]

/-! ## The whole tenure -/

/-- What a keeper is at. -/
inductive Stage (view : σ → Keyspace) (a : Announcer) (p : Pace) (t : Tenure σ) : Prop
  | waiting (hphase : t.keeper.phase = .waiting) (hdismissed : t.isDismissed = false)
      (hidle : t.pending = []) (hlog : t.log = []) (hlooked : t.looked? = none)
  | announcing {looked : Nat} {todo : List ServiceEntry} (h : Announcing view a p t looked todo)
  | running {began rounds looked : Nat} {todo : List ServiceEntry}
      (h : Running view a p t began rounds looked todo)
  | withdrawing {before : List RegistryAction} {todo : List ServiceEntry}
      (h : Withdrawing view a t before todo)

/-- What holds of a keeper from its start on. -/
structure Kept (view : σ → Keyspace) (a : Announcer) (p : Pace) (entries : List ServiceEntry)
    (interval : Nat) (t : Tenure σ) : Prop where
  entries_eq : t.keeper.entries = entries
  interval_eq : t.keeper.interval = interval
  pending_mem : ∀ action ∈ t.pending, action.entry ∈ entries
  stage : Stage view a p t

namespace Stage

variable (hb : Documented b view IsUp) (hkeys : (t.keeper.entries.map (·.key a.basePath)).Nodup)

/-- A keeper that looks at the clock is at its next stage, or goes on with this one. -/
theorem wake (h : Stage view a p t) (hpos : t.keeper.interval ≠ 0)
    (hwaking : p.waking ≤ t.keeper.interval) (hidle : t.pending = []) : Stage view a p
      { t with
        keeper := (t.keeper.run (view t.server).now).2
        pending := (t.keeper.run (view t.server).now).1
        looked? := some (view t.server).now } := by
  cases h with
  | waiting hphase hdismissed _ hlog _ =>
    exact .announcing (announcing_of_waiting hphase hdismissed hlog)
  | announcing h => exact .running (h.wake hpos hidle)
  | running h =>
    obtain ⟨_, _, h'⟩ := h.wake hwaking hidle
    exact .running h'
  | withdrawing h =>
    rw [Keeper.run_of_stopped _ h.phase_eq]
    exact .withdrawing ⟨h.phase_eq, h.isDismissed, hidle ▸ h.pending_eq, h.gone⟩

include hb hkeys in
theorem done (h : Stage view a p t) {action : RegistryAction} {rest : List RegistryAction} {s' : σ}
    (hpending : t.pending = action :: rest) (hact : a.act b action t.server = (.ok (), s')) :
    Stage view a p
      { t with
        server := s'
        pending := rest
        log := t.log ++ [(action, .ok ())]
        missed := t.missed.filter (· ≠ action.entry) } := by
  cases h with
  | waiting _ _ hidle => cases hpending.symm.trans hidle
  | announcing h =>
    obtain ⟨_, h'⟩ := h.done hb hkeys hpending hact
    exact .announcing h'
  | running h =>
    obtain ⟨_, h'⟩ := h.done hb hkeys hpending hact
    exact .running h'
  | withdrawing h =>
    obtain ⟨_, _, h'⟩ := h.done hb hpending hact _ _
    exact .withdrawing h'

include hb hkeys in
theorem miss (h : Stage view a p t) {e : ServiceEntry} {rest : List RegistryAction} {f : Failure}
    {s' : σ} (hpending : t.pending = ⟨.refresh, e⟩ :: rest) (hlast : e ∉ t.missed)
    (hact : a.act b ⟨.refresh, e⟩ t.server = (.error f, s')) : Stage view a p
      { t with
        server := s'
        pending := rest
        log := t.log ++ [(⟨.refresh, e⟩, .error f)]
        missed := e :: t.missed } := by
  cases h with
  | waiting _ _ hidle => cases hpending.symm.trans hidle
  | announcing h =>
    rw [h.pending_eq] at hpending
    obtain ⟨_, _, _, heq, -⟩ := List.map_eq_cons_iff.mp hpending
    cases heq
  | running h =>
    obtain ⟨_, h'⟩ := h.miss hb hkeys hpending hlast hact
    exact .running h'
  | withdrawing h =>
    obtain ⟨_, h'⟩ := h.miss hpending _ _ _
    exact .withdrawing h'

theorem stop (h : Stage view a p t) (hpos : t.keeper.interval ≠ 0) (hidle : t.pending = []) :
    Stage view a p
      { t with
        keeper := (t.keeper.stop (view t.server).now).2
        pending := (t.keeper.stop (view t.server).now).1
        isDismissed := true } := by
  by_cases hstopped : t.keeper.phase = .stopped
  · cases h with
    | waiting hphase => cases hphase.symm.trans hstopped
    | announcing h => cases h.phase_eq.symm.trans hstopped
    | running h => cases h.phase_eq.symm.trans hstopped
    | withdrawing h =>
      rw [Keeper.stop_of_stopped _ hstopped]
      exact .withdrawing ⟨h.phase_eq, rfl, hidle ▸ h.pending_eq, h.gone⟩
  · exact .withdrawing (withdrawing_of_stop hstopped hpos)

theorem elsewhere (h : Stage view a p t) {s' : σ} (hnow : (view t.server).now ≤ (view s').now)
    (hprompt : t.IsPrompt p (view s').now)
    (halone : ∀ e ∈ t.keeper.entries, (view t.server).LeftAlone (e.key a.basePath) (view s')) :
    Stage view a p { t with server := s' } := by
  cases h with
  | waiting hphase hdismissed hidle hlog hlooked =>
    exact .waiting hphase hdismissed hidle hlog hlooked
  | announcing h => exact .announcing (h.elsewhere hnow hprompt halone)
  | running h => exact .running (h.elsewhere hnow hprompt halone)
  | withdrawing h => exact .withdrawing (h.elsewhere halone)

/-- Every key is there from the announcement on. -/
theorem holding (h : Stage view a p t) (hpos : t.keeper.interval ≠ 0)
    (hlifetime : 3 * t.keeper.interval ≤ a.lifetime / 1000 * second)
    (hpace : p.announcing + p.waking + p.calling ≤ t.keeper.interval)
    (hdismissed : t.isDismissed = false) (hannounced : t.IsAnnounced t.keeper.entries)
    {e : ServiceEntry} (he : e ∈ t.keeper.entries) :
    ((view t.server).holding? (e.key a.basePath)).isSome = true := by
  cases h with
  | waiting _ _ _ hlog =>
    have hmem := hannounced e he
    rw [hlog] at hmem
    cases hmem
  | announcing h =>
    refine (h.leased e he (hannounced e he)).isSome ?_
    have hprompt := h.prompt
    omega
  | running h => exact h.holding hlifetime hpace he
  | withdrawing h => cases hdismissed.symm.trans h.isDismissed

end Stage

namespace Kept

variable {entries : List ServiceEntry} {interval : Nat}

theorem start (s : σ) : Kept view a p entries interval (.start entries interval s) :=
  ⟨rfl, rfl, fun _ => nofun, .waiting rfl rfl rfl rfl rfl⟩

theorem step (hb : Documented b view IsUp) (h : Kept view a p entries interval t)
    (hkeys : (entries.map (·.key a.basePath)).Nodup) (hpos : interval ≠ 0)
    (hwaking : p.waking ≤ interval) (hstep : t.Step b view a t') :
    Kept view a p entries interval t' := by
  obtain ⟨rfl, rfl, hmem, hstage⟩ := h
  cases hstep with
  | wake hidle hrun =>
    obtain ⟨rfl, rfl⟩ := Prod.ext_iff.mp hrun
    exact ⟨t.keeper.run_entries _, t.keeper.run_interval _,
      fun action => t.keeper.entry_mem_of_mem_run _, hstage.wake hpos hwaking hidle⟩
  | done hpending hact =>
    exact ⟨rfl, rfl, fun action haction => hmem action (hpending ▸ List.mem_cons_of_mem _ haction),
      hstage.done hb hkeys hpending hact⟩
  | miss hpending hlast hact =>
    exact ⟨rfl, rfl, fun action haction => hmem action (hpending ▸ List.mem_cons_of_mem _ haction),
      hstage.miss hb hkeys hpending hlast hact⟩
  | stop hidle hstop =>
    obtain ⟨rfl, rfl⟩ := Prod.ext_iff.mp hstop
    exact ⟨t.keeper.stop_entries _, t.keeper.stop_interval _,
      fun action => t.keeper.entry_mem_of_mem_stop _, hstage.stop hpos hidle⟩
  | stopFirst =>
    exact ⟨rfl, rfl, fun action haction => (RegistryAction.mem_each.mp haction).2,
      .withdrawing ⟨rfl, rfl, (List.nil_append _).symm, fun e he => .inl he⟩⟩

theorem move (hb : Documented b view IsUp) (h : Kept view a p entries interval t)
    (hkeys : (entries.map (·.key a.basePath)).Nodup) (hpos : interval ≠ 0)
    (hwaking : p.waking ≤ interval) (hmove : t.Move b view a p t') :
    Kept view a p entries interval t' := by
  cases hmove with
  | step hstep => exact h.step hb hkeys hpos hwaking hstep
  | elsewhere hnow hprompt halone =>
    exact ⟨h.entries_eq, h.interval_eq, h.pending_mem, h.stage.elsewhere hnow hprompt halone⟩

theorem moves (hb : Documented b view IsUp) (h : Kept view a p entries interval t)
    (hkeys : (entries.map (·.key a.basePath)).Nodup) (hpos : interval ≠ 0)
    (hwaking : p.waking ≤ interval) (hmoves : t.Moves b view a p t') :
    Kept view a p entries interval t' := by
  induction hmoves with
  | refl => exact h
  | tail _ hmove ih => exact ih.move hb hkeys hpos hwaking hmove

end Kept

end ChatRelay.Redis
