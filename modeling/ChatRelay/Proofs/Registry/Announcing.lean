import ChatRelay.Proofs.Registry.Clocked
import ChatRelay.Registry.Memory

/-!
# An announced entry is found

Once an entry was written under its key it stays there, and resolving finds it: its own actions
write the same again or extend it, failed or not, and actions on other keys do not matter. It ends
with a withdrawal, with another writer on the key, or with the deadline (`announced_until_gone`).
The registry may do anything else in between, and so may others (`Course`). In memory there is no
deadline, and an entry is known until it is withdrawn.

An announcement writes the entry. A refresh writes it only if the key is gone, and else extends what
it finds: an entry is made up for by a refresh only if nobody else's text stands under its key
(`text?_refresh`). An instance that could not announce itself, at an address where an earlier one
did, is therefore not found although its refreshes succeed (`refreshed_yet_unknown`).
-/

namespace ChatRelay

/-! ## In memory -/

namespace MemoryRegistry

variable {r : MemoryRegistry} {action : RegistryAction} {e : ServiceEntry}

theorem mem_act_of_ne_deregister (h : action.verb ≠ .deregister) :
    e ∈ (r.act action).entries ↔ e ∈ r.entries ∨ e = action.entry := by
  have hregister : e ∈ (r.register action.entry).entries ↔ e ∈ r.entries ∨ e = action.entry := by
    rw [register]
    split_ifs with hmem
    · exact ⟨.inl, fun h => h.elim id fun heq => heq ▸ hmem⟩
    · exact List.mem_append.trans (or_congr_right List.mem_singleton)
  rcases action with ⟨_ | _ | _, entry⟩
  · exact hregister
  · exact hregister
  · exact absurd rfl h

theorem mem_deregister {entry : ServiceEntry} :
    e ∈ (r.deregister entry).entries ↔ e ∈ r.entries ∧ e ≠ entry := by
  rw [deregister, List.mem_filter, decide_eq_true_eq]

/-- An entry that is announced in memory is known until it is withdrawn. -/
theorem mem_resolve_foldl_act {actions : List RegistryAction} (he : e ∈ r.resolve)
    (hkept : ∀ action ∈ actions, action ≠ ⟨.deregister, e⟩) :
    e ∈ (actions.foldl act r).resolve := by
  induction actions generalizing r with
  | nil => exact he
  | cons action actions ih =>
    refine ih ?_ fun action' haction' => hkept action' (List.mem_cons_of_mem _ haction')
    have hthis := hkept action List.mem_cons_self
    by_cases hverb : action.verb = .deregister
    · obtain ⟨verb, e'⟩ := action
      subst hverb
      refine mem_deregister.mpr ⟨he, ?_⟩
      rintro rfl
      exact hthis rfl
    · exact (mem_act_of_ne_deregister hverb).mpr (.inl he)

end MemoryRegistry

namespace Redis

variable {σ : Type} {b : Backend σ} {view : σ → Keyspace} {IsUp : σ → Prop}
  {a : Announcer} {s s' s₁ s₂ : σ} {outcome : Except Failure Unit}

/-! ## What happens to a server -/

/-- Actions of the registry with their outcomes, and in between whatever else may happen to the
server. -/
inductive Course (b : Backend σ) (a : Announcer) (Elsewhere : σ → σ → Prop) (s : σ) :
    List (RegistryAction × Except Failure Unit) → σ → Prop
  | start : Course b a Elsewhere s [] s
  | act {log : List (RegistryAction × Except Failure Unit)} {s₁ s₂ : σ} {action : RegistryAction}
      {outcome : Except Failure Unit} (hcourse : Course b a Elsewhere s log s₁)
      (hact : a.act b action s₁ = (outcome, s₂)) :
      Course b a Elsewhere s (log ++ [(action, outcome)]) s₂
  | elsewhere {log : List (RegistryAction × Except Failure Unit)} {s₁ s₂ : σ}
      (hcourse : Course b a Elsewhere s log s₁) (helse : Elsewhere s₁ s₂) :
      Course b a Elsewhere s log s₂

/-! ## Announced entries -/

namespace Announcer

/-- An announcement and a refresh leave something that lives for the whole lifetime from now on. -/
theorem leaves_of_ne_deregister (a : Announcer) (ks : Keyspace) {action : RegistryAction}
    (h : action.verb ≠ .deregister) :
    ∃ text?, a.leaves ks action = some ⟨text?, some (a.leaseEnd ks)⟩ := by
  rcases action with ⟨_ | _ | _, e⟩
  · exact ⟨_, rfl⟩
  · exact ⟨_, rfl⟩
  · exact absurd rfl h

/-- What is left is the entry, unless a refresh finds something else. -/
theorem leaves_eq (a : Announcer) {ks : Keyspace} {action : RegistryAction}
    (h : action.verb ≠ .deregister)
    (hfinds : action.verb = .refresh → ∀ h, ks.holding? (action.entry.key a.basePath) = some h →
      h.text? = some action.entry.metadata) :
    a.leaves ks action = some ⟨some action.entry.metadata, some (a.leaseEnd ks)⟩ := by
  rcases action with ⟨_ | _ | _, e⟩
  · rfl
  · rw [leaves]
    cases hholding : ks.holding? (e.key a.basePath) with
    | none => rfl
    | some h => rw [Option.elim, hfinds rfl h hholding]
  · exact absurd rfl h

end Announcer

/-- The entry stands under its key, if anything does, and that until `time`. -/
structure Announced (a : Announcer) (e : ServiceEntry) (time : Nat) (ks : Keyspace) : Prop where
  text_eq : ∀ h, ks.holding? (e.key a.basePath) = some h → h.text? = some e.metadata
  holds : ks.HoldsUntil (e.key a.basePath) time
  le_leaseEnd : time ≤ a.leaseEnd ks

namespace Announced

variable {e : ServiceEntry} {time : Nat} {ks ks' : Keyspace}

theorem leftAlone (h : Announced a e time ks) (halone : ks.LeftAlone (e.key a.basePath) ks') :
    Announced a e time ks' where
  text_eq h' hholding := by
    obtain ⟨-, hsame | ⟨hnone, -⟩⟩ := halone
    · exact h.text_eq h' (hsame ▸ hholding)
    · rw [hnone] at hholding
      cases hholding
  holds := h.holds.leftAlone halone
  le_leaseEnd := Nat.le_trans h.le_leaseEnd (Nat.add_le_add_right halone.1 _)

/-- An entry that is written now stands until the end of its lease. -/
theorem of_written (htime : time ≤ a.leaseEnd ks) :
    Announced a e time
      (ks.set (e.key a.basePath) (some ⟨some e.metadata, some (a.leaseEnd ks)⟩)) where
  text_eq h' hholding := by
    rw [Keyspace.holding?_set_self, Option.some_inj] at hholding
    rw [← hholding]
  holds := .set_self rfl htime
  le_leaseEnd := htime

/-- An action on the entry writes it again, and one on another key does not matter. -/
theorem act (hb : Documented b view IsUp) (h : Announced a e time (view s))
    {action : RegistryAction} (hact : a.act b action s = (outcome, s'))
    (hown : action.entry.key a.basePath = e.key a.basePath →
      action.entry = e ∧ action.verb ≠ .deregister) : Announced a e time (view s') := by
  by_cases hkey : action.entry.key a.basePath = e.key a.basePath
  · obtain ⟨rfl, hverb⟩ := hown hkey
    obtain hview | ⟨-, hview⟩ := hb.view_act hact
    · rw [hview, a.leaves_eq hverb fun _ => h.text_eq]
      exact of_written h.le_leaseEnd
    · rw [hview]
      exact h
  · have hholding := hb.holding?_act_of_ne hact (Ne.symm hkey)
    refine ⟨fun h' hh' => h.text_eq h' (hholding ▸ hh'),
      h.holds.congr (hb.now_act hact) hholding, ?_⟩
    rw [Announcer.leaseEnd, hb.now_act hact]
    exact h.le_leaseEnd

theorem course (hb : Documented b view IsUp) (h : Announced a e time (view s))
    {log : List (RegistryAction × Except Failure Unit)}
    (hcourse : Course b a (fun s s' => (view s).LeftAlone (e.key a.basePath) (view s')) s log s')
    (hlog : ∀ step ∈ log, step.1.entry.key a.basePath = e.key a.basePath →
      step.1.entry = e ∧ step.1.verb ≠ .deregister) : Announced a e time (view s') := by
  induction hcourse with
  | start => exact h
  | act _ hact ih =>
    have hbefore := ih fun step hstep => hlog step (List.mem_append_left _ hstep)
    exact hbefore.act hb hact (hlog (_, _) (List.mem_append_right _ List.mem_cons_self))
  | elsewhere _ helse ih => exact (ih hlog).leftAlone helse

end Announced

/-! ## Resolving -/

theorem Announcer.mem_snapshotOf {stored : List (String × String)} {e : ServiceEntry} :
    e ∈ snapshotOf stored ↔ ∃ key metadata, (key, metadata) ∈ stored ∧
      ServiceEntry.ofMetadata? (ServiceEntry.addressOfKey key) metadata = some e := by
  rw [snapshotOf, (List.mergeSort_perm _ _).mem_iff, List.mem_filterMap, Prod.exists]

/-- Resolving finds what can be read back from the keys under the base path. -/
theorem Documented.mem_resolve (hb : Documented b view IsUp) (hbase : IsLiteral a.basePath)
    (hup : IsUp s) : ∃ snapshot, (a.resolve b s).1 = .ok snapshot ∧
      ∀ e, e ∈ snapshot ↔ ∃ key metadata,
        (ServiceEntry.keyBase a.basePath).toList <+: key.toList ∧
        (view s).text? key = some metadata ∧
        ServiceEntry.ofMetadata? (ServiceEntry.addressOfKey key) metadata = some e := by
  obtain ⟨keys, -, hkeys, hresolve⟩ := hb.resolve_eq hbase hup
  refine ⟨_, hresolve, fun e => Announcer.mem_snapshotOf.trans ?_⟩
  constructor
  · rintro ⟨key, metadata, hstored, hread⟩
    obtain ⟨hk, htext⟩ := mem_stored.mp hstored
    exact ⟨key, metadata, ((hkeys key).mp hk).1, htext, hread⟩
  · rintro ⟨key, metadata, hbelow, htext, hread⟩
    obtain ⟨h, hholding, -⟩ := Option.bind_eq_some_iff.mp htext
    refine ⟨key, metadata, mem_stored.mpr ⟨?_, htext⟩, hread⟩
    exact (hkeys key).mpr ⟨hbelow, Option.isSome_of_eq_some hholding⟩

/-- A sound entry is found while its text stands under its key. -/
theorem Documented.mem_resolve_of_text (hb : Documented b view IsUp) (hbase : IsLiteral a.basePath)
    (hup : IsUp s) {e : ServiceEntry} (he : e.IsSound)
    (htext : (view s).text? (e.key a.basePath) = some e.metadata) :
    ∃ snapshot, (a.resolve b s).1 = .ok snapshot ∧ e ∈ snapshot := by
  obtain ⟨snapshot, hresolve, hmem⟩ := hb.mem_resolve hbase hup
  exact ⟨snapshot, hresolve, (hmem e).mpr ⟨_, _, ServiceEntry.keyBase_prefix_key _ e, htext,
    ServiceEntry.ofMetadata?_key he _⟩⟩

/-- Once the text of an entry was written or extended, resolving finds the entry for as long as
anything is under its key, which it is until the deadline at least. A refresh does not write over
what it finds, so that no other text may stand there. In a registry in memory the same call makes
the entry known until it is withdrawn, whatever was announced there before. -/
theorem announced_until_gone (hb : Documented b view IsUp) (hbase : IsLiteral a.basePath)
    {e : ServiceEntry} (he : e.IsSound) {action : RegistryAction} (hentry : action.entry = e)
    (hverb : action.verb ≠ .deregister) (hdone : a.act b action s = (.ok (), s₁))
    (hfinds : action.verb = .refresh → ∀ h, (view s).holding? (e.key a.basePath) = some h →
      h.text? = some e.metadata)
    {log : List (RegistryAction × Except Failure Unit)}
    (hcourse : Course b a (fun s s' => (view s).LeftAlone (e.key a.basePath) (view s')) s₁ log s₂)
    (hlog : ∀ step ∈ log, step.1.entry.key a.basePath = e.key a.basePath →
      step.1.entry = e ∧ step.1.verb ≠ .deregister) (hup : IsUp s₂) :
    ((view s₂).now < a.leaseEnd (view s) →
      ((view s₂).holding? (e.key a.basePath)).isSome = true) ∧
    (((view s₂).holding? (e.key a.basePath)).isSome = true →
      ∃ snapshot, (a.resolve b s₂).1 = .ok snapshot ∧ e ∈ snapshot) ∧
    ∀ (r : MemoryRegistry) (later : List RegistryAction),
      (∀ action' ∈ later, action' ≠ ⟨.deregister, e⟩) →
        e ∈ (later.foldl MemoryRegistry.act (r.act action)).resolve := by
  subst hentry
  have hwritten : Announced a action.entry (a.leaseEnd (view s)) (view s₁) := by
    obtain hview | ⟨hfailed, -⟩ := hb.view_act hdone
    · rw [hview, a.leaves_eq hverb hfinds]
      exact .of_written (Nat.le_refl _)
    · exact absurd rfl hfailed
  have hstands := hwritten.course hb hcourse hlog
  refine ⟨hstands.holds.isSome, fun hsome => ?_, fun r later => ?_⟩
  · obtain ⟨h, hholding⟩ := Option.isSome_iff_exists.mp hsome
    refine hb.mem_resolve_of_text hbase hup he ?_
    rw [Keyspace.text?, hholding]
    exact hstands.text_eq h hholding
  · exact MemoryRegistry.mem_resolve_foldl_act
      ((MemoryRegistry.mem_act_of_ne_deregister hverb).mpr (.inr rfl))

theorem announced_until_gone_refreshed :
    let a : Announcer := ⟨"chat/connect", 90000⟩
    let e : ServiceEntry := ⟨"gw-1", "ws", "127.0.0.1:6912"⟩
    let s := Clocked.empty.put (e.key a.basePath) ⟨some e.metadata, some (30 * second)⟩
    let (refreshed, s₁) := a.refresh Clocked.backend e s
    refreshed = .ok () ∧ ∃ snapshot,
      (a.resolve Clocked.backend (s₁.pass (60 * second))).1 = .ok snapshot ∧ e ∈ snapshot := by
  intro a e s
  have hholding : s.keyspace.holding? (e.key a.basePath) =
      some ⟨some e.metadata, some (30 * second)⟩ := Keyspace.holding?_set_self ..
  have hrefresh : a.refresh Clocked.backend e s =
      (.ok (), s.carryOut (.expire (e.key a.basePath) (a.lifetime / 1000))) :=
    Clocked.refresh_of_holding rfl (by decide +kernel) (Option.isSome_of_eq_some hholding)
  have hfinds : ∀ h, s.keyspace.holding? (e.key a.basePath) = some h →
      h.text? = some e.metadata := by
    intro h hfound
    rw [hholding] at hfound
    cases hfound
    rfl
  simp only [hrefresh, true_and]
  let s₂ := (s.carryOut (.expire (e.key a.basePath) (a.lifetime / 1000))).pass (60 * second)
  have hact : a.act Clocked.backend ⟨.refresh, e⟩ s = (.ok (), _) := hrefresh
  have hup : s₂.refused = [] := rfl
  have hverb : RegistryVerb.refresh ≠ .deregister := nofun
  obtain ⟨hholds, hfound, -⟩ := announced_until_gone Clocked.documented (by decide +kernel)
    (by decide) rfl hverb hact (fun _ => hfinds)
    (.elsewhere .start (Keyspace.leftAlone_pass ..)) nofun hup
  exact hfound (hholds (by decide +kernel))

/-! ## Refreshing what is not one's own -/

/-- A refresh that succeeds writes the entry if its key is gone, and else leaves the text that it
finds. -/
theorem text?_refresh (hb : Documented b view IsUp) {e : ServiceEntry}
    (hdone : a.refresh b e s = (.ok (), s')) : (view s').text? (e.key a.basePath) =
      if ((view s).holding? (e.key a.basePath)).isSome then (view s).text? (e.key a.basePath)
      else some e.metadata := by
  obtain hview | ⟨hfailed, -⟩ := hb.view_refresh hdone
  · rw [hview, Keyspace.text?, Keyspace.holding?_set_self, Announcer.leaves, Keyspace.text?]
    cases (view s).holding? (e.key a.basePath) <;> rfl
  · exact absurd rfl hfailed

/-- While another entry's text stands under the key, refreshes succeed and the entry is unknown all
the same, unless some other key tells of it. -/
theorem refresh_other_text (hb : Documented b view IsUp) (hbase : IsLiteral a.basePath)
    {e e' : ServiceEntry} (he' : e'.IsSound) (hkey : e'.key a.basePath = e.key a.basePath)
    (hne : e' ≠ e) (htext : (view s).text? (e.key a.basePath) = some e'.metadata)
    (hothers : ∀ k ≠ e.key a.basePath, ∀ metadata, (view s).text? k = some metadata →
      ServiceEntry.ofMetadata? (ServiceEntry.addressOfKey k) metadata ≠ some e)
    (hdone : a.refresh b e s = (.ok (), s')) (hup : IsUp s') :
    ∃ snapshot, (a.resolve b s').1 = .ok snapshot ∧ e ∉ snapshot := by
  obtain ⟨snapshot, hresolve, hmem⟩ := hb.mem_resolve hbase hup
  refine ⟨snapshot, hresolve, fun he => ?_⟩
  obtain ⟨k, metadata, -, hk, hread⟩ := (hmem e).mp he
  by_cases hown : k = e.key a.basePath
  · -- what stands under the key is still the other entry
    obtain ⟨h, hholding, -⟩ := Option.bind_eq_some_iff.mp htext
    rw [hown, text?_refresh hb hdone, hholding, Option.isSome_some, if_pos rfl, htext] at hk
    cases hk
    rw [hown, ← hkey, ServiceEntry.ofMetadata?_key he'] at hread
    exact hne (Option.some_inj.mp hread)
  · refine hothers k hown metadata ?_ hread
    obtain hview | ⟨hfailed, -⟩ := hb.view_refresh hdone
    · rwa [hview, Keyspace.text?, Keyspace.holding?_set_of_ne _ _ hown] at hk
    · exact absurd rfl hfailed

theorem refreshed_yet_unknown :
    let a : Announcer := ⟨"chat/connect", 90000⟩
    let earlier : ServiceEntry := ⟨"gw-1", "ws", "127.0.0.1:6912"⟩
    let later : ServiceEntry := ⟨"gw-2", "ws", "127.0.0.1:6912"⟩
    let s := (Clocked.empty.put (earlier.key a.basePath)
      ⟨some earlier.metadata, some (90 * second)⟩).refuse ["SETEX"]
    let (registered, s₁) := a.register Clocked.backend later s
    let (refreshed, s₂) := a.refresh Clocked.backend later (s₁.refuse [])
    registered = .error (.command "refused") ∧ refreshed = .ok () ∧
      ∃ snapshot, (a.resolve Clocked.backend s₂).1 = .ok snapshot ∧ later ∉ snapshot := by
  intro a earlier later s
  have hregister : a.register Clocked.backend later s = (.error (.command "refused"), s) :=
    Clocked.register_of_refused List.mem_cons_self
  have hkey : earlier.key a.basePath = later.key a.basePath := rfl
  have hholding : (s.refuse []).keyspace.holding? (later.key a.basePath) =
      some ⟨some earlier.metadata, some (90 * second)⟩ := hkey ▸ Keyspace.holding?_set_self _ _ _
  have hrefresh : a.refresh Clocked.backend later (s.refuse []) =
      (.ok (), (s.refuse []).carryOut (.expire (later.key a.basePath) (a.lifetime / 1000))) :=
    Clocked.refresh_of_holding rfl (by decide +kernel) (Option.isSome_of_eq_some hholding)
  simp only [hregister, hrefresh, true_and]
  have hsound : earlier.IsSound := by decide
  refine refresh_other_text Clocked.documented (by decide +kernel) hsound hkey (by decide) ?_ ?_
    hrefresh rfl
  · rw [Keyspace.text?, hholding]
    rfl
  · intro k hk metadata htext
    have hnone : (s.refuse []).keyspace.holding? k = none :=
      Keyspace.holding?_set_of_ne Clocked.empty.keyspace _ (hkey ▸ hk)
    rw [Keyspace.text?, hnone] at htext
    cases htext

end Redis

end ChatRelay
