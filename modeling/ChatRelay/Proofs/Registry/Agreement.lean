import ChatRelay.Proofs.Registry.Announcing
import Mathlib.Data.List.Induction
import Mathlib.Data.List.Nodup

/-!
# The registries agree

The registry in memory keeps entries, the one on a server keeps texts under keys. Given the same
actions they announce the same entries (`registries_agree`). What ties them together is that every
entry in memory stands under its key, and that nothing else is there (`Agrees`). It holds while an
entry is told by its key, that is while no two servers announce one type at one address: a refresh
that finds something then finds its own text, and a withdrawal removes what was announced.
-/

namespace ChatRelay

namespace MemoryRegistry

variable {r : MemoryRegistry} {action : RegistryAction}

theorem nodup_act (h : r.entries.Nodup) : (r.act action).entries.Nodup := by
  have hregister : (r.register action.entry).entries.Nodup := by
    rw [register]
    split_ifs with hmem
    · exact h
    · exact List.nodup_append.mpr ⟨h, List.nodup_singleton _, fun e he e' he' => by
        rintro rfl
        exact hmem (List.mem_singleton.mp he' ▸ he)⟩
  rcases action with ⟨_ | _ | _, entry⟩
  · exact hregister
  · exact hregister
  · exact h.filter _

end MemoryRegistry

namespace Redis

variable {σ : Type} {b : Backend σ} {view : σ → Keyspace} {IsUp : σ → Prop}
  {a : Announcer} {s s' : σ}

/-- What a server holds under the base path is what a registry in memory announces. -/
structure Agrees (a : Announcer) (r : MemoryRegistry) (ks : Keyspace) : Prop where
  nodup : r.entries.Nodup
  text_eq : ∀ e ∈ r.entries, ks.text? (e.key a.basePath) = some e.metadata
  exists_entry : ∀ k, (ServiceEntry.keyBase a.basePath).toList <+: k.toList →
    (ks.holding? k).isSome = true → ∃ e ∈ r.entries, e.key a.basePath = k

namespace Agrees

variable {r : MemoryRegistry} {ks ks' : Keyspace} {e : ServiceEntry}

theorem congr (h : Agrees a r ks)
    (hsame : ∀ k, (ServiceEntry.keyBase a.basePath).toList <+: k.toList →
      ks'.holding? k = ks.holding? k) : Agrees a r ks' where
  nodup := h.nodup
  text_eq e he := by
    rw [Keyspace.text?, hsame _ (ServiceEntry.keyBase_prefix_key _ e)]
    exact h.text_eq e he
  exists_entry k hbelow hholding := h.exists_entry k hbelow (hsame k hbelow ▸ hholding)

/-- An announced entry is added under its key, whether it was there or not. -/
theorem announce (h : Agrees a r ks) {action : RegistryAction} (hverb : action.verb ≠ .deregister)
    (hkeys : ∀ e ∈ r.entries, e.key a.basePath = action.entry.key a.basePath → e = action.entry)
    (time : Nat) : Agrees a (r.act action)
      (ks.set (action.entry.key a.basePath) (some ⟨some action.entry.metadata, some time⟩)) where
  nodup := MemoryRegistry.nodup_act h.nodup
  text_eq e he := by
    rw [Keyspace.text?, Keyspace.holding?_set]
    rw [MemoryRegistry.mem_act_of_ne_deregister hverb] at he
    split_ifs with hkey
    · obtain rfl : e = action.entry := he.elim (fun he => hkeys e he hkey) id
      rfl
    · obtain he | rfl := he
      · exact h.text_eq e he
      · exact absurd rfl hkey
  exists_entry k hbelow hholding := by
    simp only [MemoryRegistry.mem_act_of_ne_deregister hverb]
    rw [Keyspace.holding?_set] at hholding
    split_ifs at hholding with hkey
    · exact ⟨_, .inr rfl, hkey.symm⟩
    · obtain ⟨e, he, hk⟩ := h.exists_entry k hbelow hholding
      exact ⟨e, .inl he, hk⟩

theorem withdraw (h : Agrees a r ks)
    (hkeys : ∀ e' ∈ r.entries, e'.key a.basePath = e.key a.basePath → e' = e) :
    Agrees a (r.deregister e) (ks.set (e.key a.basePath) none) where
  nodup := h.nodup.filter _
  text_eq e' he' := by
    obtain ⟨he', hne⟩ := MemoryRegistry.mem_deregister.mp he'
    rw [Keyspace.text?, Keyspace.holding?_set_of_ne _ _ (mt (hkeys e' he') hne)]
    exact h.text_eq e' he'
  exists_entry k hbelow hholding := by
    rw [Keyspace.holding?_set] at hholding
    split_ifs at hholding with hkey
    · cases hholding
    · obtain ⟨e', he', hk⟩ := h.exists_entry k hbelow hholding
      refine ⟨e', MemoryRegistry.mem_deregister.mpr ⟨he', ?_⟩, hk⟩
      rintro rfl
      exact hkey hk.symm

/-- An action that is carried out on both keeps them in agreement. -/
theorem act (hb : Documented b view IsUp) (h : Agrees a r (view s)) {action : RegistryAction}
    (hact : a.act b action s = (.ok (), s'))
    (hkeys : ∀ e ∈ r.entries, e.key a.basePath = action.entry.key a.basePath → e = action.entry) :
    Agrees a (r.act action) (view s') := by
  obtain hview | ⟨hfailed, -⟩ := hb.view_act hact
  · rw [hview]
    by_cases hverb : action.verb = .deregister
    · obtain ⟨verb, e⟩ := action
      subst hverb
      exact h.withdraw hkeys
    · -- what a refresh finds under the key is the entry itself
      have hfinds : ∀ h', (view s).holding? (action.entry.key a.basePath) = some h' →
          h'.text? = some action.entry.metadata := by
        intro h' hholding
        obtain ⟨e, he, hkey⟩ := h.exists_entry _ (ServiceEntry.keyBase_prefix_key _ action.entry)
          (Option.isSome_of_eq_some hholding)
        have htext := h.text_eq e he
        rwa [Keyspace.text?, hkey, hholding, hkeys e he hkey] at htext
      rw [a.leaves_eq hverb fun _ => hfinds]
      exact h.announce hverb hkeys _
  · exact absurd rfl hfailed

/-- Resolving reads the entries back. -/
theorem resolve_eq (hb : Documented b view IsUp) (hbase : IsLiteral a.basePath) (hup : IsUp s)
    (h : Agrees a r (view s)) (hsound : ∀ e ∈ r.entries, e.IsSound)
    (hkeys : ∀ e ∈ r.entries, ∀ e' ∈ r.entries, e.key a.basePath = e'.key a.basePath → e = e') :
    (a.resolve b s).1 = .ok (r.resolve.mergeSort ServiceEntry.le) := by
  obtain ⟨keys, hnodup, hmem, hresolve⟩ := hb.resolve_eq hbase hup
  have hperm : keys.Perm (r.entries.map (·.key a.basePath)) := by
    refine (List.perm_ext_iff_of_nodup hnodup (h.nodup.map_on hkeys)).mpr fun k => ?_
    rw [hmem, List.mem_map]
    constructor
    · rintro ⟨hbelow, hholding⟩
      exact h.exists_entry k hbelow hholding
    · rintro ⟨e, he, rfl⟩
      obtain ⟨h', hholding, -⟩ := Option.bind_eq_some_iff.mp (h.text_eq e he)
      exact ⟨ServiceEntry.keyBase_prefix_key _ e, Option.isSome_of_eq_some hholding⟩
  rw [hresolve, Announcer.snapshotOf, List.filterMap_filterMap]
  congr 1
  refine ServiceEntry.mergeSort_eq_of_perm ((hperm.filterMap _).trans (.of_eq ?_))
  rw [List.filterMap_map]
  refine (List.filterMap_congr fun e he => ?_).trans List.filterMap_some
  simp only [Function.comp_apply, h.text_eq e he, Option.map_some, Option.bind_some,
    ServiceEntry.ofMetadata?_key (hsound e he)]

end Agrees

/-! ## Histories -/

/-- The registry in memory that was told the same. -/
def replayed (log : List (RegistryAction × Except Failure Unit)) : MemoryRegistry :=
  (log.map Prod.fst).foldl MemoryRegistry.act .empty

theorem replayed_concat (log : List (RegistryAction × Except Failure Unit))
    (step : RegistryAction × Except Failure Unit) :
    replayed (log ++ [step]) = (replayed log).act step.1 := by
  simp [replayed]

theorem exists_step_of_mem_replayed {log : List (RegistryAction × Except Failure Unit)}
    {e : ServiceEntry} (he : e ∈ (replayed log).entries) : ∃ step ∈ log, step.1.entry = e := by
  induction log using List.reverseRecOn with
  | nil => cases he
  | append_singleton log step ih =>
    rw [replayed_concat] at he
    by_cases hverb : step.1.verb = .deregister
    · rw [MemoryRegistry.act, hverb] at he
      obtain ⟨step', hstep', rfl⟩ := ih (MemoryRegistry.mem_deregister.mp he).1
      exact ⟨step', List.mem_append_left _ hstep', rfl⟩
    · obtain he | rfl := (MemoryRegistry.mem_act_of_ne_deregister hverb).mp he
      · obtain ⟨step', hstep', rfl⟩ := ih he
        exact ⟨step', List.mem_append_left _ hstep', rfl⟩
      · exact ⟨step, List.mem_append_right _ List.mem_cons_self, rfl⟩

/-- Nothing under the base path changes; time may pass as long as no deadline comes. -/
def SameBelow (a : Announcer) (ks ks' : Keyspace) : Prop :=
  ∀ k, (ServiceEntry.keyBase a.basePath).toList <+: k.toList → ks'.holding? k = ks.holding? k

theorem agrees_course (hb : Documented b view IsUp)
    (hempty : ∀ k, (ServiceEntry.keyBase a.basePath).toList <+: k.toList →
      (view s).holding? k = none)
    {log : List (RegistryAction × Except Failure Unit)}
    (hcourse : Course b a (fun s s' => SameBelow a (view s) (view s')) s log s')
    (hok : ∀ step ∈ log, step.2 = .ok ())
    (hkeys : ∀ step ∈ log, ∀ step' ∈ log,
      step.1.entry.key a.basePath = step'.1.entry.key a.basePath → step.1.entry = step'.1.entry) :
    Agrees a (replayed log) (view s') := by
  induction hcourse with
  | start =>
    refine ⟨.nil, fun e he => (List.not_mem_nil he).elim, fun k hbelow hholding => ?_⟩
    rw [hempty k hbelow] at hholding
    cases hholding
  | @act log _ _ action outcome _ hact ih =>
    have hbefore := ih (fun step hstep => hok step (List.mem_append_left _ hstep))
      fun step hstep step' hstep' =>
        hkeys step (List.mem_append_left _ hstep) step' (List.mem_append_left _ hstep')
    have hlast : (action, outcome) ∈ log ++ [(action, outcome)] :=
      List.mem_append_right _ List.mem_cons_self
    obtain rfl : outcome = .ok () := hok _ hlast
    rw [replayed_concat]
    refine hbefore.act hb hact fun e he hkey => ?_
    obtain ⟨step, hstep, rfl⟩ := exists_step_of_mem_replayed he
    exact hkeys step (List.mem_append_left _ hstep) _ hlast hkey
  | elsewhere _ helse ih => exact (ih hok hkeys).congr helse

/-- Told the same, and all of it being carried out, a registry on a server and one in memory
announce the same, at every moment and whatever the base path ends with. -/
theorem registries_agree (hb : Documented b view IsUp) (hbase : IsLiteral a.basePath)
    (hempty : ∀ k, (ServiceEntry.keyBase a.basePath).toList <+: k.toList →
      (view s).holding? k = none)
    {log : List (RegistryAction × Except Failure Unit)}
    (hcourse : Course b a (fun s s' => SameBelow a (view s) (view s')) s log s')
    (hok : ∀ step ∈ log, step.2 = .ok ())
    (hsound : ∀ step ∈ log, step.1.entry.IsSound)
    (hids : ∀ step ∈ log, ∀ step' ∈ log, step.1.entry.serverType = step'.1.entry.serverType →
      step.1.entry.address = step'.1.entry.address →
      step.1.entry.serverId = step'.1.entry.serverId) (hup : IsUp s') :
    (a.resolve b s').1 = .ok
      (((log.map Prod.fst).foldl MemoryRegistry.act .empty).resolve.mergeSort ServiceEntry.le) := by
  have hkeys : ∀ step ∈ log, ∀ step' ∈ log,
      step.1.entry.key a.basePath = step'.1.entry.key a.basePath →
      step.1.entry = step'.1.entry := by
    intro step hstep step' hstep' hkey
    exact ServiceEntry.eq_of_key_eq (hsound step hstep) (hsound step' hstep') hkey
      (hids step hstep step' hstep')
  have hagrees := agrees_course hb hempty hcourse hok hkeys
  refine hagrees.resolve_eq hb hbase hup ?_ ?_
  · intro e he
    obtain ⟨step, hstep, rfl⟩ := exists_step_of_mem_replayed he
    exact hsound step hstep
  · intro e he e' he' hkey
    obtain ⟨step, hstep, rfl⟩ := exists_step_of_mem_replayed he
    obtain ⟨step', hstep', rfl⟩ := exists_step_of_mem_replayed he'
    exact hkeys step hstep step' hstep' hkey

theorem registries_agree_withdrawn :
    let a : Announcer := ⟨"chat/connect//", 90000⟩
    let ws : ServiceEntry := ⟨"gw-1", "ws", "127.0.0.1:6912"⟩
    let tcp : ServiceEntry := ⟨"gw-1", "tcp", "127.0.0.1:6912"⟩
    ∃ s, Course Clocked.backend a (fun _ _ => False) .empty
        [(⟨.register, ws⟩, .ok ()), (⟨.register, tcp⟩, .ok ()), (⟨.refresh, ws⟩, .ok ()),
          (⟨.deregister, tcp⟩, .ok ())] s ∧
      (a.resolve Clocked.backend s).1 = .ok [ws] := by
  intro a ws tcp
  have hlifetime : a.lifetime / 1000 < 1 <<< 63 := by decide +kernel
  obtain ⟨s₁, hact₁, hup⟩ := Clocked.act_of_up (c := .empty) rfl hlifetime ⟨.register, ws⟩
  obtain ⟨s₂, hact₂, hup⟩ := Clocked.act_of_up hup hlifetime ⟨.register, tcp⟩
  obtain ⟨s₃, hact₃, hup⟩ := Clocked.act_of_up hup hlifetime ⟨.refresh, ws⟩
  obtain ⟨s₄, hact₄, hup⟩ := Clocked.act_of_up hup hlifetime ⟨.deregister, tcp⟩
  have hcourse (Elsewhere) : Course Clocked.backend a Elsewhere .empty _ s₄ :=
    .act (.act (.act (.act .start hact₁) hact₂) hact₃) hact₄
  refine ⟨s₄, hcourse _, ?_⟩
  rw [registries_agree Clocked.documented (by decide +kernel) (fun _ _ => rfl) (hcourse _) (by simp)
    (by decide) (by decide) hup]
  exact congrArg Except.ok (List.mergeSort_singleton ws)

end Redis

end ChatRelay
