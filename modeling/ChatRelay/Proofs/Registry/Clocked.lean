import ChatRelay.Proofs.Registry.Keyspace

/-!
# A server with a clock

A server that does what is documented, as small as it can be: its keyspace, a list in which all its
keys are, and the names of the commands that it refuses for now. It lists its keys in one page. Time
passes only when it is told so (`Clocked.pass`), and then the keys whose deadline has come are gone.
-/

namespace ChatRelay.Redis

/-- The key that a command may put something under. -/
def Command.target? : Command → Option String
  | setExpiring key .. | expire key _ | delete key => some key
  | scan .. | getMany _ => none

/-- A command changes nothing but its key. -/
theorem Keyspace.holding?_after_of_ne {ks : Keyspace} {c : Command} {k : String}
    (h : c.target? ≠ some k) : (ks.after c).holding? k = ks.holding? k := by
  cases c with
  | setExpiring key | expire key | delete key =>
    exact Keyspace.holding?_set_of_ne ks _ fun hk => h (congrArg some hk.symm)
  | scan | getMany => rfl

/-- The deadline, if there is one, has not come. -/
def Holding.isLive (h : Holding) (now : Nat) : Bool :=
  h.deadline?.all (now < ·)

namespace Keyspace

variable (ks : Keyspace) (time : Nat) (key : String)

/-- Time passes, and what has reached its deadline is gone. -/
def pass (ks : Keyspace) (time : Nat) : Keyspace :=
  ⟨ks.now + time, fun k => (ks.holding? k).filter (·.isLive (ks.now + time))⟩

theorem holding?_pass : (ks.pass time).holding? key =
    (ks.holding? key).filter (·.isLive (ks.now + time)) := rfl

theorem leftAlone_pass : ks.LeftAlone key (ks.pass time) := by
  refine ⟨Nat.le_add_right _ _, ?_⟩
  rw [holding?_pass]
  cases ks.holding? key with
  | none => exact .inl rfl
  | some h =>
    rw [Option.filter_some]
    split_ifs with hlive
    · exact .inl rfl
    · rw [Holding.isLive] at hlive
      cases hdeadline : h.deadline? with
      | none => rw [hdeadline] at hlive; exact absurd rfl hlive
      | some deadline =>
        rw [hdeadline, Option.all_some, decide_eq_true_eq, Nat.not_lt] at hlive
        exact .inr ⟨rfl, h, deadline, rfl, hdeadline, hlive⟩

end Keyspace

/-- A server that keeps deadlines. -/
structure Clocked where
  keyspace : Keyspace
  keys : List String
  mem_keys : ∀ k, (keyspace.holding? k).isSome = true → k ∈ keys
  /-- The names of the commands that it refuses. -/
  refused : List String

namespace Clocked

/-- A server that holds nothing. -/
def empty : Clocked where
  keyspace := ⟨0, fun _ => none⟩
  keys := []
  mem_keys := nofun
  refused := []

/-- Put something under a key, as anyone may. -/
def put (c : Clocked) (key : String) (h : Holding) : Clocked where
  keyspace := c.keyspace.set key (some h)
  keys := key :: c.keys
  mem_keys k hk := by
    rw [Keyspace.holding?_set] at hk
    split_ifs at hk with hkey
    · exact hkey ▸ List.mem_cons_self
    · exact List.mem_cons_of_mem key (c.mem_keys k hk)
  refused := c.refused

/-- Let time pass. -/
def pass (c : Clocked) (time : Nat) : Clocked where
  keyspace := c.keyspace.pass time
  keys := c.keys
  mem_keys k hk := by
    rw [Keyspace.holding?_pass, Option.isSome_filter] at hk
    exact c.mem_keys k (Option.isSome_of_any hk)
  refused := c.refused

/-- From now on commands of these names are refused. -/
def refuse (c : Clocked) (names : List String) : Clocked :=
  { c with refused := names }

/-- Carry out a command. -/
def carryOut (c : Clocked) (command : Command) : Clocked where
  keyspace := c.keyspace.after command
  keys := command.target?.toList ++ c.keys
  mem_keys k hk := by
    by_cases htarget : command.target? = some k
    · simp [htarget]
    · rw [Keyspace.holding?_after_of_ne htarget] at hk
      exact List.mem_append_right _ (c.mem_keys k hk)
  refused := c.refused

/-- The keys that a listing finds. -/
def listed (c : Clocked) (start : List Char) : List String :=
  c.keys.filter fun k => start.isPrefixOf k.toList && (c.keyspace.holding? k).isSome

/-- The answer to a command. -/
def answer (c : Clocked) : Command → Reply
  | .setExpiring .. | .delete _ => .done
  | .expire key _ => .found (c.keyspace.holding? key).isSome
  | .scan _ pattern => .page 0 (c.listed pattern.toList.dropLast)
  | .getMany keys => .values (keys.map c.keyspace.text?)

/-- The server as a backend. -/
def backend : Backend Clocked where
  perform c command :=
    if command.name ∈ c.refused then (.error (.command "refused"), c)
    else (.ok (c.answer command), c.carryOut command)

theorem mem_listed {c : Clocked} {start k : String} :
    k ∈ c.listed (start ++ "*").toList.dropLast ↔
      start.toList <+: k.toList ∧ (c.keyspace.holding? k).isSome = true := by
  have hstart : (start ++ "*").toList.dropLast = start.toList := by simp
  rw [listed, hstart, List.mem_filter, Bool.and_eq_true, List.isPrefixOf_iff_prefix]
  exact ⟨fun h => h.2, fun h => ⟨c.mem_keys k h.2, h⟩⟩

theorem perform_of_refused {c : Clocked} (command : Command) (h : command.name ∈ c.refused) :
    backend.perform c command = (.error (.command "refused"), c) := if_pos h

theorem perform_of_accepted {c : Clocked} (command : Command) (h : command.name ∉ c.refused) :
    backend.perform c command = (.ok (c.answer command), c.carryOut command) := if_neg h

/-- The server is up while it refuses nothing. -/
theorem documented : Documented backend keyspace (·.refused = []) where
  carriesOut := by
    intro c c' command reply h
    simp only [backend] at h
    split_ifs at h <;> cases h
    refine ⟨rfl, ?_⟩
    cases command with
    | scan => exact ⟨_, _, rfl⟩
    | setExpiring | expire | delete | getMany => rfl
  fails := by
    intro c c' command f h
    simp only [backend] at h
    split_ifs at h <;> cases h
    exact .inl rfl
  ends := by
    intro c pattern hup
    have haccepted : (Command.scan 0 pattern).name ∉ c.refused := by simp [hup]
    exact ⟨_, _, .last (perform_of_accepted _ haccepted), hup⟩
  lists := by
    intro c c' start keys _ h k
    rcases h with hpage | ⟨hpage, hnext, _⟩
    · simp only [backend] at hpage
      split_ifs at hpage <;> cases hpage
      exact mem_listed
    · -- the first page is the last one
      simp only [backend] at hpage
      split_ifs at hpage <;> cases hpage
      exact absurd rfl hnext
  reads := by
    intro c keys _ hup
    have haccepted : (Command.getMany keys).name ∉ c.refused := by simp [hup]
    exact ⟨_, _, perform_of_accepted _ haccepted⟩

/-! ## Actions -/

variable {c : Clocked} {a : Announcer} {e : ServiceEntry}

theorem register_of_refused (h : "SETEX" ∈ c.refused) :
    a.register backend e c = (.error (.command "refused"), c) := by
  have hperform := perform_of_refused
    (.setExpiring (e.key a.basePath) (a.lifetime / 1000) e.metadata) h
  rw [Announcer.register, putExpiring, a.wholeSeconds_lifetime]
  simp only [hperform]

theorem register_of_accepted (h : c.refused = []) :
    a.register backend e c =
      (.ok (), c.carryOut (.setExpiring (e.key a.basePath) (a.lifetime / 1000) e.metadata)) := by
  have hperform := perform_of_accepted (c := c)
    (.setExpiring (e.key a.basePath) (a.lifetime / 1000) e.metadata) (by simp [h])
  rw [Announcer.register, putExpiring, a.wholeSeconds_lifetime]
  simp only [hperform]

theorem refresh_of_holding (h : c.refused = []) (hlifetime : a.lifetime / 1000 < 1 <<< 63)
    (hholding : (c.keyspace.holding? (e.key a.basePath)).isSome = true) :
    a.refresh backend e c =
      (.ok (), c.carryOut (.expire (e.key a.basePath) (a.lifetime / 1000))) := by
  have hperform := perform_of_accepted (c := c)
    (.expire (e.key a.basePath) (a.lifetime / 1000)) (by simp [h])
  rw [answer, hholding] at hperform
  rw [Announcer.refresh, extend, a.wholeSeconds_lifetime]
  simp only [Nat.not_le.mpr hlifetime, if_false, hperform]

theorem refresh_of_gone (h : c.refused = []) (hlifetime : a.lifetime / 1000 < 1 <<< 63)
    (hholding : c.keyspace.holding? (e.key a.basePath) = none) :
    a.refresh backend e c =
      a.register backend e (c.carryOut (.expire (e.key a.basePath) (a.lifetime / 1000))) := by
  have hperform := perform_of_accepted (c := c)
    (.expire (e.key a.basePath) (a.lifetime / 1000)) (by simp [h])
  rw [answer, hholding] at hperform
  rw [Announcer.refresh, extend, a.wholeSeconds_lifetime]
  simp only [Nat.not_le.mpr hlifetime, if_false, hperform, Option.isSome_none]

theorem deregister_of_accepted (h : c.refused = []) :
    a.deregister backend e c = (.ok (), c.carryOut (.delete (e.key a.basePath))) := by
  have hperform := perform_of_accepted (c := c)
    (.delete (e.key a.basePath)) (by simp [h])
  rw [Announcer.deregister, remove, hperform]

/-- A server that refuses nothing does what it is asked. -/
theorem act_of_up (h : c.refused = []) (hlifetime : a.lifetime / 1000 < 1 <<< 63)
    (action : RegistryAction) :
    ∃ c', a.act backend action c = (.ok (), c') ∧ c'.refused = [] := by
  obtain ⟨verb, e⟩ := action
  cases verb with
  | register => exact ⟨_, register_of_accepted h, h⟩
  | refresh =>
    cases hholding : c.keyspace.holding? (e.key a.basePath) with
    | none => exact ⟨_, (refresh_of_gone h hlifetime hholding).trans (register_of_accepted h), h⟩
    | some held =>
      exact ⟨_, refresh_of_holding h hlifetime (Option.isSome_of_eq_some hholding), h⟩
  | deregister => exact ⟨_, deregister_of_accepted h, h⟩

end Clocked

end ChatRelay.Redis
