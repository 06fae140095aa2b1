import ChatRelay.Proofs.Registry.Keyspace
import ChatRelay.Registry.Redis.Rehearsal
import Mathlib.Data.List.Perm.Basic

/-!
# Listings in any order

A server lists its keys in pages of any size, in any order and repeatedly, and some of them may be
gone by the time their values are asked for (`Enumerates`). None of this is seen in what resolving
finds: the listed keys that announce an entry are the same ones in every listing
(`Enumerates.resolve_eq`), each is read once, and the entries are put in order
(`resolve_of_enumerates`). Which keys fit a pattern is left to the server.
-/

namespace ChatRelay.Redis

variable {σ σ' : Type} {b : Backend σ} {b' : Backend σ'} {s : σ} {s' : σ'}
  {fits : String → String → Prop} {store : String → Option String} {pattern k : String}
  {e : ServiceEntry} {a : Announcer}

/-- Asked for the keys that fit a pattern, the backend comes to an end, and all of them that hold a
text are in one page or more; a key that is listed and does not fit holds none. The values that it
gives afterwards are those of the store, each in the place of its key. -/
def Enumerates (b : Backend σ) (s : σ) (fits : String → String → Prop)
    (store : String → Option String) (pattern : String) : Prop :=
  ∃ listed s', Pages b pattern 0 s listed s' ∧
    (∀ k, (store k).isSome = true → (k ∈ listed ↔ fits pattern k)) ∧
    ∀ keys ≠ [], ∃ s'', b.perform s' (.getMany keys) = (.ok (.values (keys.map store)), s'')

/-! ## Backends that enumerate -/

/-- The key begins with the pattern up to the star behind it. -/
def BeginsWith (pattern k : String) : Prop :=
  pattern.toList.dropLast <+: k.toList

instance (pattern k : String) : Decidable (BeginsWith pattern k) :=
  inferInstanceAs (Decidable (pattern.toList.dropLast <+: k.toList))

/-- A server that does what is documented enumerates the texts that it holds. -/
theorem Documented.enumerates {view : σ → Keyspace} {IsUp : σ → Prop}
    (hb : Documented b view IsUp) {start : String} (hstart : IsLiteral start) (hup : IsUp s) :
    Enumerates b s BeginsWith (view s).text? (start ++ "*") := by
  obtain ⟨listed, s', hpages, hup'⟩ := hb.ends (start ++ "*") hup
  refine ⟨listed, s', hpages, fun k hk => ?_, hb.getMany_of_pages hpages hup'⟩
  obtain ⟨text, htext⟩ := Option.isSome_iff_exists.mp hk
  obtain ⟨held, hheld, -⟩ := Option.bind_eq_some_iff.mp htext
  rw [hb.lists hstart hpages, hheld, BeginsWith]
  simp

/-- A stand-in with a scripted listing. -/
def Rehearsal.scripted (store : Table String String) (pages : List (List String))
    (commands : List Command) : Rehearsal :=
  ⟨store, .empty, some pages, true, commands⟩

namespace Rehearsal

variable {content : Table String String} {pages : List (List String)}

theorem perform_scan_scripted (cursor : Nat) (commands : List Command) :
    backend.perform (scripted content pages commands) (.scan cursor pattern) =
      (.ok (.page (if cursor + 1 < pages.length then cursor + 1 else 0) (pages.getD cursor [])),
        scripted content pages (commands ++ [.scan cursor pattern])) := rfl

theorem flatten_drop {cursor : Nat} (h : cursor < pages.length) :
    (pages.drop cursor).flatten = pages.getD cursor [] ++ (pages.drop (cursor + 1)).flatten := by
  rw [List.drop_eq_getElem_cons h, List.flatten_cons, List.getD_eq_getElem?_getD,
    List.getElem?_eq_getElem h, Option.getD_some]

/-- The pages from a cursor on, of which there are `n` behind the first. -/
theorem pages_scripted (n cursor : Nat) (commands : List Command)
    (h : cursor + n + 1 = pages.length) :
    ∃ commands', Pages backend pattern cursor (scripted content pages commands)
      (pages.drop cursor).flatten (scripted content pages commands') := by
  induction n generalizing cursor commands with
  | zero =>
    refine ⟨commands ++ [.scan cursor pattern], ?_⟩
    rw [flatten_drop (by omega), List.drop_eq_nil_of_le (by omega), List.flatten_nil,
      List.append_nil]
    refine .last ?_
    rw [perform_scan_scripted, if_neg (by omega)]
  | succ n ih =>
    obtain ⟨commands', hrest⟩ := ih (cursor + 1) (commands ++ [.scan cursor pattern]) (by omega)
    refine ⟨commands', ?_⟩
    rw [flatten_drop (by omega)]
    refine .more ?_ (Nat.succ_ne_zero cursor) hrest
    rw [perform_scan_scripted, if_pos (by omega)]

/-- A script that lists what fits of the store, and nothing else of it, is a listing. -/
theorem enumerates_scripted (hne : pages ≠ [])
    (hlists : ∀ k ∈ content.keys, k ∈ pages.flatten ↔ fits pattern k) :
    Enumerates backend (scripted content pages []) fits content.find? pattern := by
  have hlength : 0 + (pages.length - 1) + 1 = pages.length := by
    have := List.length_pos_of_ne_nil hne
    omega
  obtain ⟨commands, hpages⟩ := pages_scripted _ 0 [] hlength
  refine ⟨pages.flatten, scripted content pages commands, hpages,
    fun k hk => hlists k (Table.mem_keys.mpr hk), fun keys _ =>
      ⟨scripted content pages (commands ++ [.getMany keys]), rfl⟩⟩

end Rehearsal

/-- Three keys, of which one holds a half of the metadata. -/
def threeKeys : Table String String :=
  .ofList [("chat/connect/ws/10.0.0.1:80", "serverId=gw-2&serverType=ws"),
    ("chat/connect/tcp/10.0.0.1:81", "serverType=tcp"),
    ("chat/connect/ws/10.0.0.2:80", "serverId=gw-1&serverType=ws")]

def inOnePage : List (List String) :=
  [["chat/connect/ws/10.0.0.1:80", "chat/connect/tcp/10.0.0.1:81", "chat/connect/ws/10.0.0.2:80"]]

/-- The three keys with repetitions, and with a key that is gone. -/
def scattered : List (List String) :=
  [["chat/connect/ws/10.0.0.2:80"], [],
    ["chat/connect/tcp/10.0.0.1:81", "chat/connect/ws/10.0.0.2:80"],
    ["chat/connect/ws/10.0.0.3:80", "chat/connect/ws/10.0.0.1:80"]]

theorem enumerates_threeKeys (pages : List (List String)) (hne : pages ≠ [])
    (hlists : ∀ k ∈ threeKeys.keys, k ∈ pages.flatten) :
    Enumerates Rehearsal.backend (.scripted threeKeys pages []) BeginsWith threeKeys.find?
      (ServiceEntry.keyBase "chat/connect/" ++ "*") := by
  have hfits : ∀ k ∈ threeKeys.keys,
      BeginsWith (ServiceEntry.keyBase "chat/connect/" ++ "*") k := by
    decide +kernel
  exact Rehearsal.enumerates_scripted hne fun k hk => iff_of_true (hlists k hk) (hfits k hk)

/-! ## What is resolved -/

/-- The key fits the pattern and holds complete metadata, which announces the entry at the address
that stands in the key. -/
def Announces (fits : String → String → Prop) (store : String → Option String)
    (pattern k : String) (e : ServiceEntry) : Prop :=
  fits pattern k ∧ ∃ metadata ∈ store k, ServiceEntry.SaysLast metadata "serverId" e.serverId ∧
    ServiceEntry.SaysLast metadata "serverType" e.serverType ∧
    e.address = ServiceEntry.addressOfKey k

/-- The entry that a key holds, if it holds one. -/
def entryOf? (store : String → Option String) (k : String) : Option ServiceEntry :=
  (store k).bind (ServiceEntry.ofMetadata? (ServiceEntry.addressOfKey k))

theorem announces_iff :
    Announces fits store pattern k e ↔ fits pattern k ∧ entryOf? store k = some e := by
  simp only [Announces, entryOf?, Option.bind_eq_some_iff, ServiceEntry.ofMetadata?_eq_some_iff,
    Option.mem_def]

theorem exists_announces_iff : (∃ e, Announces fits store pattern k e) ↔
    fits pattern k ∧ (entryOf? store k).isSome = true := by
  simp only [announces_iff, exists_and_left, Option.isSome_iff_exists]

/-- Resolving reads each key once that announces an entry. -/
theorem Enumerates.resolve_eq
    (h : Enumerates b s fits store (ServiceEntry.keyBase a.basePath ++ "*")) :
    ∃ keys : List String, keys.Nodup ∧
      (∀ k, k ∈ keys ↔ ∃ e, Announces fits store (ServiceEntry.keyBase a.basePath ++ "*") k e) ∧
      (a.resolve b s).1 = .ok ((keys.filterMap (entryOf? store)).mergeSort ServiceEntry.le) := by
  obtain ⟨listed, s', hpages, hlisted, hreads⟩ := h
  refine ⟨(distinct listed).filter fun k => (entryOf? store k).isSome,
    (nodup_distinct listed).filter _, fun k => ?_, ?_⟩
  · rw [List.mem_filter, mem_distinct, exists_announces_iff]
    refine and_congr_left fun hentry => hlisted k ?_
    obtain ⟨e, he⟩ := Option.isSome_iff_exists.mp hentry
    obtain ⟨metadata, hmetadata, -⟩ := Option.bind_eq_some_iff.mp he
    exact Option.isSome_of_eq_some hmetadata
  · rw [Announcer.resolve_eq (hpages.entriesWithPrefix_eq hreads), Announcer.snapshotOf,
      List.filterMap_filterMap, List.filterMap_filter]
    congr 2
    refine List.filterMap_congr fun k _ => ?_
    have hfilter : ∀ e? : Option ServiceEntry, (if e?.isSome then e? else none) = e? := by
      rintro (_ | _) <;> rfl
    rw [hfilter, entryOf?]
    cases store k <;> rfl

/-- Keys that announce entries, each with its own. -/
theorem forall₂_entryOf? {keys : List String}
    (h : ∀ k ∈ keys, ∃ e, Announces fits store pattern k e) :
    List.Forall₂ (Announces fits store pattern) keys (keys.filterMap (entryOf? store)) := by
  induction keys with
  | nil => exact .nil
  | cons k keys ih =>
    rw [List.forall_mem_cons] at h
    obtain ⟨⟨e, he⟩, hrest⟩ := h
    rw [List.filterMap_cons_some (announces_iff.mp he).2]
    exact .cons he (ih hrest)

/-- **A listing does not show its order.** Backends that enumerate the same store, in whatever
pages, are resolved to the same entries, which are in order; and these are announced by the keys
that announce any, each by one. -/
theorem resolve_of_enumerates
    (h : Enumerates b s fits store (ServiceEntry.keyBase a.basePath ++ "*"))
    (h' : Enumerates b' s' fits store (ServiceEntry.keyBase a.basePath ++ "*")) :
    ∃ snapshot, (a.resolve b s).1 = .ok snapshot ∧ (a.resolve b' s').1 = .ok snapshot ∧
      snapshot.Pairwise (fun e e' => e.rank ≤ e'.rank) ∧
      ∃ keys : List String, keys.Nodup ∧
        (∀ k, k ∈ keys ↔
          ∃ e, Announces fits store (ServiceEntry.keyBase a.basePath ++ "*") k e) ∧
        List.Forall₂ (Announces fits store (ServiceEntry.keyBase a.basePath ++ "*")) keys
          snapshot := by
  obtain ⟨keys, hnodup, hkeys, hresolve⟩ := h.resolve_eq
  obtain ⟨keys', hnodup', hkeys', hresolve'⟩ := h'.resolve_eq
  have hperm : keys.Perm keys' :=
    (List.perm_ext_iff_of_nodup hnodup hnodup').mpr fun k => (hkeys k).trans (hkeys' k).symm
  rw [← ServiceEntry.mergeSort_eq_of_perm (hperm.filterMap _)] at hresolve'
  refine ⟨_, hresolve, hresolve', ServiceEntry.pairwise_mergeSort_rank _, ?_⟩
  have hentries := forall₂_entryOf? fun k hk => (hkeys k).mp hk
  -- the keys are put in the order of their entries
  obtain ⟨sorted, hannounced, hsorted⟩ :=
    List.perm_comp_forall₂ (List.mergeSort_perm _ ServiceEntry.le) hentries.flip
  exact ⟨sorted, hsorted.nodup_iff.mpr hnodup, fun k => hsorted.mem_iff.trans (hkeys k),
    hannounced.flip⟩

theorem resolve_of_enumerates_scattered :
    ∃ snapshot,
      (Announcer.resolve Rehearsal.backend ⟨"chat/connect/", 90000⟩
        (.scripted threeKeys inOnePage [])).1 = .ok snapshot ∧
      (Announcer.resolve Rehearsal.backend ⟨"chat/connect/", 90000⟩
        (.scripted threeKeys scattered [])).1 = .ok snapshot := by
  obtain ⟨snapshot, hresolve, hresolve', -⟩ := resolve_of_enumerates
    (a := ⟨"chat/connect/", 90000⟩) (enumerates_threeKeys inOnePage (by decide) (by decide +kernel))
    (enumerates_threeKeys scattered (by decide) (by decide +kernel))
  exact ⟨snapshot, hresolve, hresolve'⟩

end ChatRelay.Redis
