import ChatRelay.Proofs.Registry.Announcing
import ChatRelay.Registry.Keepalive
import Mathlib.Logic.Relation

/-!
# A keeper at work

A keeper makes its calls one after another, and time passes between them; a request to stop is seen
when no call is to be made. A `Tenure` is a keeper with the calls that it has still to make, those
that it has made, and the server. `Tenure.Step` is what the keeper does, and `Tenure.Move` adds what
others do: time passes, and nobody else writes to the keys.

When the keeper gets to run is not up to it. Its surroundings are as prompt as a `Pace` says: calls
are answered within a time, and the keeper is woken to look at the clock again within another. Both
count from when it last looked at the clock, whatever it did then.

Every call that is made was to be made. A keeper that knows that it is to stop begins nothing new:
it makes the calls that are left, in their order, and no others ever (`Tenure.WindsDown`).
-/

namespace ChatRelay

namespace RegistryAction

theorem mem_each {verb : RegistryVerb} {entries : List ServiceEntry} {action : RegistryAction} :
    action ∈ each verb entries ↔ action.verb = verb ∧ action.entry ∈ entries := by
  rw [each, List.mem_map]
  constructor
  · rintro ⟨e, he, rfl⟩
    exact ⟨rfl, he⟩
  · rintro ⟨rfl, he⟩
    exact ⟨_, he, rfl⟩

theorem each_eq_nil_iff {verb : RegistryVerb} {entries : List ServiceEntry} :
    each verb entries = [] ↔ entries = [] := by
  rw [each, List.map_eq_nil_iff]

end RegistryAction

/-! ## What a keeper does -/

namespace Keeper

variable (k : Keeper) (now : Nat)

@[simp] theorem run_entries : (k.run now).2.entries = k.entries := by
  unfold run
  split <;> rfl

@[simp] theorem run_interval : (k.run now).2.interval = k.interval := by
  unfold run
  split <;> rfl

/-- A keeper that is stopped does what is due and withdraws its entries, unless it was stopped
before or cannot start its ticker. -/
theorem stop_eq : k.stop now =
    if (k.run now).2.phase = .stopped then k.run now
    else ((k.run now).1 ++
        (if k.interval = 0 then [] else RegistryAction.each .deregister k.entries),
      { (k.run now).2 with phase := .stopped }) := by
  have hentries := k.run_entries now
  have hinterval := k.run_interval now
  unfold stop
  rcases hrun : k.run now with ⟨actions, entries, interval, phase⟩
  rw [hrun] at hentries hinterval
  cases phase <;> simp_all

@[simp] theorem stop_entries : (k.stop now).2.entries = k.entries := by
  rw [stop_eq]
  split_ifs <;> exact k.run_entries now

@[simp] theorem stop_interval : (k.stop now).2.interval = k.interval := by
  rw [stop_eq]
  split_ifs <;> exact k.run_interval now

theorem stop_phase : (k.stop now).2.phase = .stopped := by
  rw [stop_eq]
  by_cases h : (k.run now).2.phase = .stopped
  · rw [if_pos h]
    exact h
  · rw [if_neg h]

/-- The keeper acts on its own entries. -/
theorem entry_mem_of_mem_run {action : RegistryAction} (h : action ∈ (k.run now).1) :
    action.entry ∈ k.entries := by
  unfold run at h
  split at h
  · exact (RegistryAction.mem_each.mp h).2
  · cases h
  · obtain ⟨actions, hactions, haction⟩ := List.mem_flatten.mp h
    rw [List.eq_of_mem_replicate hactions] at haction
    exact (RegistryAction.mem_each.mp haction).2
  · cases h

theorem entry_mem_of_mem_stop {action : RegistryAction} (h : action ∈ (k.stop now).1) :
    action.entry ∈ k.entries := by
  rw [stop_eq] at h
  split_ifs at h
  · exact k.entry_mem_of_mem_run now h
  · rw [List.append_nil] at h
    exact k.entry_mem_of_mem_run now h
  · exact (List.mem_append.mp h).elim (k.entry_mem_of_mem_run now) fun h =>
      (RegistryAction.mem_each.mp h).2

variable {k}

theorem run_of_waiting (h : k.phase = .waiting) :
    k.run now = (RegistryAction.each .register k.entries, { k with phase := .announcing }) := by
  rw [run, h]

theorem run_of_announcing (h : k.phase = .announcing) (hinterval : k.interval ≠ 0) :
    k.run now = ([], { k with phase := .running now 0 }) := by
  rw [run, h]
  simp only [if_neg hinterval]

theorem run_of_running {start rounds : Nat} (h : k.phase = .running start rounds) : k.run now =
    ((List.replicate ((now - start) / k.interval - rounds)
        (RegistryAction.each .refresh k.entries)).flatten,
      { k with phase := .running start (max ((now - start) / k.interval) rounds) }) := by
  rw [run, h]

theorem run_of_stopped (h : k.phase = .stopped) : k.run now = ([], k) := by
  rw [run, h]

theorem stop_of_stopped (h : k.phase = .stopped) : k.stop now = ([], k) := by
  rw [stop_eq, run_of_stopped now h]
  exact if_pos h

theorem run_phase_ne_stopped (h : k.phase ≠ .stopped) (hinterval : k.interval ≠ 0) :
    (k.run now).2.phase ≠ .stopped := by
  cases hphase : k.phase with
  | waiting => rw [run_of_waiting now hphase]; nofun
  | announcing => rw [run_of_announcing now hphase hinterval]; nofun
  | running start rounds => rw [run_of_running now hphase]; nofun
  | stopped => exact absurd hphase h

end Keeper

namespace Redis

variable {σ : Type}

/-- A keeper at work on a server. -/
structure Tenure (σ : Type) where
  keeper : Keeper
  server : σ
  /-- The calls that the keeper has still to make before it looks at the clock again. -/
  pending : List RegistryAction
  /-- The calls that it has made, with their outcomes. -/
  log : List (RegistryAction × Except Failure Unit)
  /-- The entries whose latest refresh failed. -/
  missed : List ServiceEntry
  /-- When the keeper last looked at the clock, if it ever ran. -/
  looked? : Option Nat
  /-- The keeper has seen the request to stop. -/
  isDismissed : Bool

/-- How prompt the surroundings of a keeper are. The times count from when the keeper last looked at
the clock. -/
structure Pace where
  /-- The first announcement is over, and the ticker started. -/
  announcing : Nat
  /-- The calls of a round are over. -/
  calling : Nat
  /-- The keeper is woken to look at the clock again. -/
  waking : Nat
  calling_le : calling ≤ waking

namespace Tenure

/-- A keeper that has not run yet, before a server. -/
def start (entries : List ServiceEntry) (interval : Nat) (s : σ) : Tenure σ :=
  ⟨.new entries interval, s, [], [], [], none, false⟩

/-- All of the entries have been announced. -/
def IsAnnounced (t : Tenure σ) (entries : List ServiceEntry) : Prop :=
  ∀ e ∈ entries, (⟨.register, e⟩, .ok ()) ∈ t.log

/-- How long the keeper may be left alone. -/
def patience (t : Tenure σ) (p : Pace) : Nat :=
  if t.keeper.phase = .announcing then p.announcing
  else if t.pending = [] then p.waking
  else p.calling

/-- It may be as late as `now` before the keeper goes on. Nothing is asked before the keeper first
runs, nor once it knows that it is to stop. -/
def IsPrompt (t : Tenure σ) (p : Pace) (now : Nat) : Prop :=
  t.isDismissed = false → ∀ looked, t.looked? = some looked → now ≤ looked + t.patience p

/-- What the keeper does. A call that fails is a refresh, and not of an entry that the last one
missed already. -/
inductive Step (b : Backend σ) (view : σ → Keyspace) (a : Announcer) :
    Tenure σ → Tenure σ → Prop
  | wake {t : Tenure σ} {actions : List RegistryAction} {k : Keeper} (hidle : t.pending = [])
      (hrun : t.keeper.run (view t.server).now = (actions, k)) :
      Step b view a t
        { t with keeper := k, pending := actions, looked? := some (view t.server).now }
  | done {t : Tenure σ} {action : RegistryAction} {rest : List RegistryAction} {s' : σ}
      (hpending : t.pending = action :: rest) (hact : a.act b action t.server = (.ok (), s')) :
      Step b view a t
        { t with
          server := s'
          pending := rest
          log := t.log ++ [(action, .ok ())]
          missed := t.missed.filter (· ≠ action.entry) }
  | miss {t : Tenure σ} {e : ServiceEntry} {rest : List RegistryAction} {f : Failure} {s' : σ}
      (hpending : t.pending = ⟨.refresh, e⟩ :: rest) (hlast : e ∉ t.missed)
      (hact : a.act b ⟨.refresh, e⟩ t.server = (.error f, s')) :
      Step b view a t
        { t with
          server := s'
          pending := rest
          log := t.log ++ [(⟨.refresh, e⟩, .error f)]
          missed := e :: t.missed }
  | stop {t : Tenure σ} {actions : List RegistryAction} {k : Keeper} (hidle : t.pending = [])
      (hstop : t.keeper.stop (view t.server).now = (actions, k)) :
      Step b view a t { t with keeper := k, pending := actions, isDismissed := true }
  /-- The request to stop may be seen before the round that is due. -/
  | stopFirst {t : Tenure σ} {began rounds : Nat} (hidle : t.pending = [])
      (hphase : t.keeper.phase = .running began rounds) : Step b view a t
        { t with
          keeper := { t.keeper with phase := .stopped }
          pending := RegistryAction.each .deregister t.keeper.entries
          isDismissed := true }

/-- What happens to a keeper: it does something, or time passes and others write to other keys. -/
inductive Move (b : Backend σ) (view : σ → Keyspace) (a : Announcer) (p : Pace) :
    Tenure σ → Tenure σ → Prop
  | step {t t' : Tenure σ} (hstep : Step b view a t t') : Move b view a p t t'
  | elsewhere {t : Tenure σ} {s' : σ} (hnow : (view t.server).now ≤ (view s').now)
      (hprompt : t.IsPrompt p (view s').now)
      (halone : ∀ e ∈ t.keeper.entries, (view t.server).LeftAlone (e.key a.basePath) (view s')) :
      Move b view a p t { t with server := s' }

/-- A history of moves. -/
abbrev Moves (b : Backend σ) (view : σ → Keyspace) (a : Announcer) (p : Pace) :
    Tenure σ → Tenure σ → Prop :=
  Relation.ReflTransGen (Move b view a p)

/-- From `t` to `t'` the keeper has known that it is to stop, and has made the first of the calls
that were left, and no others. -/
def WindsDown (t t' : Tenure σ) : Prop :=
  t'.isDismissed = true ∧
    ∃ made, t'.log = t.log ++ made ∧ t.pending = made.map Prod.fst ++ t'.pending

variable {b : Backend σ} {view : σ → Keyspace} {a : Announcer} {p : Pace} {t t' t'' : Tenure σ}

namespace WindsDown

theorem refl (h : t.isDismissed = true) : t.WindsDown t :=
  ⟨h, [], (List.append_nil _).symm, rfl⟩

theorem trans (h : t.WindsDown t') (h' : t'.WindsDown t'') : t.WindsDown t'' := by
  obtain ⟨-, made, hlog, hpending⟩ := h
  obtain ⟨hdismissed, made', hlog', hpending'⟩ := h'
  refine ⟨hdismissed, made ++ made', ?_, ?_⟩
  · rw [hlog', hlog, List.append_assoc]
  · rw [hpending, hpending', List.map_append, List.append_assoc]

end WindsDown

variable {Answers : σ → Prop}

end Tenure

end Redis

end ChatRelay
