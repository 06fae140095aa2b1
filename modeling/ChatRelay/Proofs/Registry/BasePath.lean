import ChatRelay.Proofs.Registry.Announcing
import ChatRelay.Proofs.Registry.Glob

/-!
# Keys under a base path

The keys under a base path are listed by a pattern, which is the path with a star behind it, and the
path is taken as it is. A server whose listings follow the patterns (`Globbing`) therefore lists the
keys that fit, and these are the keys that begin with the path if the path is plain
(`found_under_plain_path`). Entries stand under keys that have the path in them literally, so that
with another path they may not be found, and others found in their place (`bracketed_path`).
-/

namespace ChatRelay.Redis

variable {σ : Type} {b : Backend σ} {view : σ → Keyspace} {IsUp : σ → Prop}
  {a : Announcer} {s : σ}

theorem IsLiteral.isPlain {text : String} (h : IsLiteral text) : IsPlain text := by
  have hspecial : ∀ c ∈ ['*', '?', '[', '\\'], c ∈ specialChars := by
    simp [specialChars]
  exact fun c hc => mt (hspecial c) (h c hc)

theorem isPlain_keyBase {basePath : String} (h : IsPlain basePath) :
    IsPlain (ServiceEntry.keyBase basePath) := by
  intro c hc
  obtain hc | rfl := mem_keyBase hc
  · exact h c hc
  · decide

/-- The backend does what is documented of a server, and its listings follow the patterns: what was
in the pages of one is all that the server holds under keys that fit. -/
structure Globbing (b : Backend σ) (view : σ → Keyspace) (IsUp : σ → Prop) : Prop
    extends Documented b view IsUp where
  listed : ∀ {s s' : σ} {pattern : String} {keys : List String}, Pages b pattern 0 s keys s' →
    ∀ k, k ∈ keys ↔ Fits pattern k ∧ ((view s).holding? k).isSome = true

namespace Globbing

variable (hb : Globbing b view IsUp)
include hb

/-- A listing finds the texts under the keys that fit, in the order of the keys. -/
theorem entriesWithPrefix (start : String) (hup : IsUp s) :
    ∃ stored, (entriesWithPrefix b start s).1 = .ok stored ∧
      (stored.map Prod.fst).Pairwise (· < ·) ∧
      ∀ k text, (k, text) ∈ stored ↔ Fits (start ++ "*") k ∧ (view s).text? k = some text := by
  obtain ⟨keys, s', hpages, hup'⟩ := hb.ends (start ++ "*") hup
  refine ⟨_, hpages.entriesWithPrefix_eq (hb.getMany_of_pages hpages hup'), ?_, fun k text => ?_⟩
  · rw [map_fst_stored]
    exact (pairwise_distinct keys).filter _
  · rw [mem_stored, mem_distinct, hb.listed hpages]
    refine and_congr_left fun htext => and_iff_left ?_
    obtain ⟨h, hholding, -⟩ := Option.bind_eq_some_iff.mp htext
    exact Option.isSome_of_eq_some hholding

/-- Resolving finds what can be read back from the keys that fit. -/
theorem mem_resolve (a : Announcer) (hup : IsUp s) :
    ∃ snapshot, (a.resolve b s).1 = .ok snapshot ∧ ∀ e, e ∈ snapshot ↔ ∃ key metadata,
      Fits (ServiceEntry.keyBase a.basePath ++ "*") key ∧ (view s).text? key = some metadata ∧
        ServiceEntry.ofMetadata? (ServiceEntry.addressOfKey key) metadata = some e := by
  obtain ⟨stored, hlisted, -, hstored⟩ :=
    hb.entriesWithPrefix (ServiceEntry.keyBase a.basePath) hup
  refine ⟨_, Announcer.resolve_eq hlisted, fun e => Announcer.mem_snapshotOf.trans ?_⟩
  simp only [hstored, and_assoc]

end Globbing

/-- An entry that was announced stands under its key as long as anything does, unless it is
withdrawn or somebody else writes there. -/
theorem Documented.text?_of_course (hb : Documented b view IsUp) {e : ServiceEntry} {s₀ s₁ : σ}
    (hregister : a.register b e s₀ = (.ok (), s₁))
    {log : List (RegistryAction × Except Failure Unit)}
    (hcourse : Course b a (fun s s' => (view s).LeftAlone (e.key a.basePath) (view s')) s₁ log s)
    (hlog : ∀ step ∈ log, step.1.entry.key a.basePath = e.key a.basePath →
      step.1.entry = e ∧ step.1.verb ≠ .deregister)
    (hlives : ((view s).holding? (e.key a.basePath)).isSome = true) :
    (view s).text? (e.key a.basePath) = some e.metadata := by
  have hwritten : Announced a e (a.leaseEnd (view s₀)) (view s₁) := by
    obtain hview | ⟨hfailed, -⟩ := hb.view_register hregister
    · rw [hview]
      exact .of_written (Nat.le_refl _)
    · exact absurd rfl hfailed
  obtain ⟨h, hholding⟩ := Option.isSome_iff_exists.mp hlives
  rw [Keyspace.text?, hholding]
  exact (hwritten.course hb hcourse hlog).text_eq h hholding

/-- A listing finds the texts under the keys that fit the prefix with a star behind it, each once
and in the order of the keys; if the prefix is plain, these are the keys that begin with it. Entries
are announced and looked for under a base path: if it is plain, one that was announced is found for
as long as anything is under its key, and all that is found stands under a key that begins with the
path. -/
theorem found_under_plain_path (hb : Globbing b view IsUp) (hup : IsUp s) :
    (∀ start, ∃ stored, (entriesWithPrefix b start s).1 = .ok stored ∧
      (stored.map Prod.fst).Pairwise (· < ·) ∧
      (∀ k text, (k, text) ∈ stored ↔ Fits (start ++ "*") k ∧ (view s).text? k = some text) ∧
      (IsPlain start → ∀ k text, (k, text) ∈ stored ↔
        start.toList <+: k.toList ∧ (view s).text? k = some text)) ∧
    ∀ a : Announcer, IsPlain a.basePath → ∃ snapshot, (a.resolve b s).1 = .ok snapshot ∧
      (∀ e ∈ snapshot, ∃ k metadata, (ServiceEntry.keyBase a.basePath).toList <+: k.toList ∧
        (view s).text? k = some metadata ∧
        ServiceEntry.ofMetadata? (ServiceEntry.addressOfKey k) metadata = some e) ∧
      ∀ e : ServiceEntry, e.IsSound → ∀ s₀ s₁ log, a.register b e s₀ = (.ok (), s₁) →
        Course b a (fun s s' => (view s).LeftAlone (e.key a.basePath) (view s')) s₁ log s →
        (∀ step ∈ log, step.1.entry.key a.basePath = e.key a.basePath →
          step.1.entry = e ∧ step.1.verb ≠ .deregister) →
        ((view s).holding? (e.key a.basePath)).isSome = true → e ∈ snapshot := by
  constructor
  · intro start
    obtain ⟨stored, hlisted, hsorted, hstored⟩ := hb.entriesWithPrefix start hup
    refine ⟨stored, hlisted, hsorted, hstored, fun hplain k text => ?_⟩
    rw [hstored, fits_append_star hplain]
  · intro a hplain
    obtain ⟨snapshot, hresolve, hmem⟩ := hb.mem_resolve a hup
    have hfits := fits_append_star (isPlain_keyBase hplain)
    refine ⟨snapshot, hresolve, fun e he => ?_, ?_⟩
    · obtain ⟨k, metadata, hk, hread⟩ := (hmem e).mp he
      exact ⟨k, metadata, (hfits k).mp hk, hread⟩
    · intro e he s₀ s₁ log hregister hcourse hlog hlives
      refine (hmem e).mpr ⟨e.key a.basePath, e.metadata, ?_,
        hb.text?_of_course hregister hcourse hlog hlives, ServiceEntry.ofMetadata?_key he _⟩
      exact (hfits _).mpr (ServiceEntry.keyBase_prefix_key a.basePath e)

/-! ## A server with a clock and patterns -/

namespace Clocked

/-- The keys that a listing by a pattern finds. -/
def fitting (c : Clocked) (pattern : String) : List String :=
  c.keys.filter fun k => Fits pattern k ∧ (c.keyspace.holding? k).isSome = true

/-- The server with listings by patterns. -/
def globbing : Backend Clocked where
  perform c command :=
    match command with
    | .scan _ pattern =>
      if "SCAN" ∈ c.refused then (.error (.command "refused"), c)
      else (.ok (.page 0 (c.fitting pattern)), c)
    | .setExpiring .. | .expire .. | .delete _ | .getMany _ => backend.perform c command

theorem perform_globbing_scan {c c' : Clocked} {cursor : Nat} {pattern : String}
    {outcome : Except Failure Reply}
    (h : globbing.perform c (.scan cursor pattern) = (outcome, c')) :
    c' = c ∧ ∀ reply, outcome = .ok reply → reply = .page 0 (c.fitting pattern) := by
  simp only [globbing] at h
  split_ifs at h <;> cases h
  · exact ⟨rfl, nofun⟩
  · exact ⟨rfl, fun _ h => (Except.ok.inj h).symm⟩

theorem mem_fitting {c : Clocked} {pattern k : String} :
    k ∈ c.fitting pattern ↔ Fits pattern k ∧ (c.keyspace.holding? k).isSome = true := by
  rw [fitting, List.mem_filter, decide_eq_true_eq]
  exact ⟨And.right, fun h => ⟨c.mem_keys k h.2, h⟩⟩

theorem pages_globbing {c c' : Clocked} {pattern : String} {cursor : Nat} {keys : List String}
    (h : Pages globbing pattern cursor c keys c') : keys = c.fitting pattern := by
  cases h with
  | last hpage => exact (Reply.page.inj ((perform_globbing_scan hpage).2 _ rfl)).2
  | more hpage hnext =>
    exact absurd (Reply.page.inj ((perform_globbing_scan hpage).2 _ rfl)).1 hnext

theorem globbing_documented : Globbing globbing keyspace (·.refused = []) where
  carriesOut := by
    intro c c' command reply h
    cases command with
    | scan cursor pattern =>
      obtain ⟨rfl, hreply⟩ := perform_globbing_scan h
      exact ⟨rfl, 0, _, hreply reply rfl⟩
    | setExpiring | expire | delete | getMany => exact documented.carriesOut h
  fails := by
    intro c c' command f h
    cases command with
    | scan cursor pattern => exact .inl (congrArg keyspace (perform_globbing_scan h).1)
    | setExpiring | expire | delete | getMany => exact documented.fails h
  ends := by
    intro c pattern hup
    refine ⟨c.fitting pattern, c, .last ?_, hup⟩
    simp only [globbing, hup, List.not_mem_nil, if_false]
  lists := by
    intro c c' start keys hstart h k
    rw [pages_globbing h, mem_fitting, fits_append_star hstart.isPlain]
  reads := by
    intro c keys hne hup
    exact documented.reads hne hup
  listed := by
    intro c c' pattern keys h k
    rw [pages_globbing h, mem_fitting]

theorem globbing_register {c : Clocked} {a : Announcer} {e : ServiceEntry} (h : c.refused = []) :
    a.register globbing e c =
      (.ok (), c.carryOut (.setExpiring (e.key a.basePath) (a.lifetime / 1000) e.metadata)) :=
  register_of_accepted h

end Clocked

/-- An entry is announced beside a key of another path, and looked for a minute later. -/
theorem found_under_plain_path_later :
    let a : Announcer := ⟨"chat/connect", 90000⟩
    let e : ServiceEntry := ⟨"gw-1", "ws", "10.0.0.1:80"⟩
    let other : ServiceEntry := ⟨"gw-2", "ws", "10.0.0.2:80"⟩
    let s := Clocked.empty.put (other.key "chat") ⟨some other.metadata, none⟩
    let (registered, s₁) := a.register Clocked.globbing e s
    IsPlain a.basePath ∧ registered = .ok () ∧ ∃ snapshot,
      (a.resolve Clocked.globbing (s₁.pass (60 * second))).1 = .ok snapshot ∧ e ∈ snapshot := by
  intro a e other s
  have hplain : IsPlain a.basePath := by decide +kernel
  have hregister := Clocked.globbing_register (c := s) (a := a) (e := e) rfl
  simp only [hregister, hplain, true_and]
  obtain ⟨-, hresolve⟩ := found_under_plain_path Clocked.globbing_documented
    (s := (s.carryOut (.setExpiring (e.key a.basePath) (a.lifetime / 1000) e.metadata)).pass
      (60 * second)) rfl
  obtain ⟨snapshot, hsnapshot, -, hfound⟩ := hresolve a hplain
  have hsound : e.IsSound := by decide
  refine ⟨snapshot, hsnapshot, hfound e hsound s _ [] hregister
    (.elsewhere .start (Keyspace.leftAlone_pass ..)) nofun ?_⟩
  decide +kernel

/-- An entry is announced under a path with brackets. Its key is there, but it is not found, and an
entry of another path is found in its place. -/
theorem bracketed_path :
    let a : Announcer := ⟨"chat[12]", 90000⟩
    let e : ServiceEntry := ⟨"gw-1", "ws", "10.0.0.1:80"⟩
    let other : ServiceEntry := ⟨"gw-2", "ws", "10.0.0.2:80"⟩
    let s := Clocked.empty.put (other.key "chat1") ⟨some other.metadata, none⟩
    let (registered, s₁) := a.register Clocked.globbing e s
    registered = .ok () ∧ s₁.keyspace.text? (e.key a.basePath) = some e.metadata ∧
      ¬ (ServiceEntry.keyBase a.basePath).toList <+: (other.key "chat1").toList ∧
      ∃ snapshot, (a.resolve Clocked.globbing s₁).1 = .ok snapshot ∧
        e ∉ snapshot ∧ other ∈ snapshot := by
  intro a e other s
  have hregister := Clocked.globbing_register (c := s) (a := a) (e := e) rfl
  simp only [hregister, true_and]
  have hothers : s.keyspace.text? (other.key "chat1") = some other.metadata := by decide +kernel
  have hown : ¬ Fits (ServiceEntry.keyBase a.basePath ++ "*") (e.key a.basePath) := by
    decide +kernel
  refine ⟨by decide +kernel, by decide +kernel, ?_⟩
  obtain ⟨snapshot, hresolve, hmem⟩ := Clocked.globbing_documented.mem_resolve a
    (s := s.carryOut (.setExpiring (e.key a.basePath) (a.lifetime / 1000) e.metadata)) rfl
  refine ⟨snapshot, hresolve, fun he => ?_, (hmem other).mpr ⟨other.key "chat1", other.metadata,
    by decide +kernel, by decide +kernel, by decide +kernel⟩⟩
  obtain ⟨k, metadata, hfits, htext, hread⟩ := (hmem e).mp he
  -- only the other key can tell of an entry, and it tells of the other one
  have hk : k ≠ e.key a.basePath := fun hk => hown (hk ▸ hfits)
  have htext : s.keyspace.text? k = some metadata := by
    rw [← htext, Keyspace.text?, Keyspace.text?]
    exact congrArg (·.bind Holding.text?) (Keyspace.holding?_set_of_ne _ _ hk).symm
  by_cases hother : k = other.key "chat1"
  · rw [hother, hothers] at htext
    cases htext
    rw [hother] at hread
    exact absurd hread (by decide +kernel)
  · have hnone : s.keyspace.holding? k = none :=
      Keyspace.holding?_set_of_ne Clocked.empty.keyspace _ hother
    rw [Keyspace.text?, hnone] at htext
    cases htext

end ChatRelay.Redis
