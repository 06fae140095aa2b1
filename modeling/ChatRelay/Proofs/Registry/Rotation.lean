import ChatRelay.Proofs.Registry.Following
import Mathlib.Data.List.DropRight
import Mathlib.Data.List.Rotate

/-!
# Clients in turn

A directory is asked for the client of one server or for one client of every server, and is given
snapshots, in any order. The clients of a server are picked in turn from the latest snapshot on, and
both ways of asking take from the same turns. Beside the clients of the snapshot only the counts of
the picks are kept (`Directory.Turned`): each call answers by these counts, and moves them and
nothing else. So the picks since a snapshot are the clients of the server over and over
(`Directory.Served.clients_in_turn`), and as many of them in a row as there are clients are all
clients, each once (`Directory.perm_of_infix_turns`).

The picks are counted in 64 bits. As long as the count does not overflow the turns are kept; beyond
that a client of the latest snapshot is still given.
-/

namespace ChatRelay

namespace Directory

variable {α : Type} {client : ServiceEntry → α} {d : Directory α} {snapshot : Snapshot}
  {clients window : List α} {picks picks' : String → Nat}

/-! ## Turns -/

/-- The client whose turn it is after so many picks. -/
def turn (clients : List α) (picks : Nat) : Option α :=
  clients[picks % clients.length]?

theorem turn_eq_none_iff {n : Nat} : turn clients n = none ↔ clients = [] := by
  rw [turn, List.getElem?_eq_none_iff]
  constructor
  · intro hlen
    by_contra hne
    exact Nat.not_le.mpr (Nat.mod_lt n (List.length_pos_of_ne_nil hne)) hlen
  · rintro rfl
    exact Nat.zero_le _

theorem mem_of_turn {n : Nat} {a : α} (h : turn clients n = some a) : a ∈ clients :=
  List.mem_of_getElem? h

/-- The first picks. -/
def turns (clients : List α) (picks : Nat) : List α :=
  (List.range picks).filterMap (turn clients)

theorem turns_succ (clients : List α) (n : Nat) :
    turns clients (n + 1) = turns clients n ++ (turn clients n).toList := by
  rw [turns, List.range_succ, List.filterMap_append, turns]
  cases h : turn clients n <;> simp [h]

theorem getElem?_turns (hne : clients ≠ []) {n i : Nat} (hi : i < n) :
    (turns clients n)[i]? = turn clients i := by
  have hturn (k : Nat) : turn clients k = some ((turn clients k).getD (clients.head hne)) := by
    cases h : turn clients k with
    | none => exact absurd (turn_eq_none_iff.mp h) hne
    | some a => rfl
  have hmap : turns clients n =
      (List.range n).map fun k => (turn clients k).getD (clients.head hne) := by
    rw [← List.filterMap_eq_map, turns]
    exact List.filterMap_congr fun k _ => hturn k
  rw [hmap, List.getElem?_map, List.getElem?_range hi, Option.map_some, ← hturn]

/-- As many picks in a row as there are clients are the clients, from one of them on. -/
theorem perm_of_infix_turns {n : Nat} (hwindow : window <:+: turns clients n)
    (hlength : window.length = clients.length) : window.Perm clients := by
  by_cases hne : clients = []
  · rw [hne, List.length_nil, List.length_eq_zero_iff] at hlength
    rw [hne, hlength]
  obtain ⟨before, behind, hsplit⟩ := hwindow
  have hrotate : window = clients.rotate before.length := by
    refine List.ext_getElem? fun j => ?_
    by_cases hj : j < clients.length
    · have hplace : (turns clients n)[before.length + j]? = window[j]? := by
        rw [← hsplit, List.append_assoc, List.getElem?_append_right (Nat.le_add_right ..),
          Nat.add_sub_cancel_left, List.getElem?_append_left (hlength ▸ hj)]
      have hn : before.length + j < n := by
        have hmade : (turns clients n).length ≤ n :=
          (List.length_filterMap_le _ _).trans List.length_range.le
        rw [← hsplit, List.length_append, List.length_append, hlength] at hmade
        omega
      rw [← hplace, getElem?_turns hne hn, List.getElem?_rotate hj, turn, Nat.add_comm]
    · rw [List.getElem?_eq_none (by omega),
        List.getElem?_eq_none (by rw [List.length_rotate]; omega)]
  rw [hrotate]
  exact List.rotate_perm clients before.length

/-! ## Counted picks -/

/-- The picks that are counted for a server. -/
def countOf (d : Directory α) (server : String) : UInt64 :=
  ((d.servers.find? server).map Instances.picks).getD 0

/-- The directory holds the clients of a snapshot and has counted these picks, in 64 bits. Nothing
is counted for a server without clients. -/
structure Turned (d : Directory α) (client : ServiceEntry → α) (snapshot : Snapshot)
    (picks : String → Nat) : Prop extends d.Holds client snapshot where
  counted : ∀ server, clientsIn client snapshot server ≠ [] →
    d.countOf server = .ofNat (picks server)

theorem Turned.congr (h : d.Turned client snapshot picks)
    (hpicks : ∀ server, clientsIn client snapshot server ≠ [] → picks server = picks' server) :
    d.Turned client snapshot picks' :=
  ⟨h.toHolds, fun server hne => (h.counted server hne).trans (by rw [hpicks server hne])⟩

theorem countOf_add (client : ServiceEntry → α) (d : Directory α) (e : ServiceEntry)
    (server : String) : (d.add client e).countOf server = d.countOf server := by
  unfold add
  split
  next => rfl
  next =>
    unfold countOf
    dsimp only
    rw [Table.find?_insert]
    split
    next hs =>
      rw [hs]
      cases d.servers.find? e.serverId <;> rfl
    next => rfl

/-- A directory that is built from a snapshot has counted no picks. -/
theorem turned_ofSnapshot (client : ServiceEntry → α) (snapshot : Snapshot) :
    (ofSnapshot client snapshot).Turned client snapshot fun _ => 0 := by
  refine ⟨holds_ofSnapshot client snapshot, fun server _ => ?_⟩
  refine List.foldlRecOn (motive := fun d : Directory α => d.countOf server = 0) _ _ rfl ?_
  intro d hd e _
  rw [countOf_add, hd]

theorem pick_fst (i : Instances α) : i.pick.1 = turn i.clients i.picks.toNat := by
  unfold Instances.pick turn
  split
  next h => rw [h]
  next h => rw [h]

theorem picks_pick {i : Instances α} (hne : i.clients ≠ []) : i.pick.2.picks = i.picks + 1 := by
  unfold Instances.pick
  split
  next => rfl
  next h => exact absurd (turn_eq_none_iff.mp h) hne

theorem clientFor_fst (d : Directory α) (server : String) : (d.clientFor server).1 =
    turn ((d.clientsOf? server).getD []) (d.countOf server).toNat := by
  unfold clientFor clientsOf? countOf
  split
  next h =>
    rw [h]
    exact (turn_eq_none_iff.mpr rfl).symm
  next i h =>
    rw [h]
    exact pick_fst i

theorem countOf_clientFor_of_ne {server other : String} (hne : other ≠ server) :
    (d.clientFor server).2.countOf other = d.countOf other := by
  unfold clientFor
  split
  next => rfl
  next =>
    unfold countOf
    dsimp only
    rw [Table.find?_insert, if_neg hne]

theorem countOf_clientFor_self {server : String} (hne : (d.clientsOf? server).getD [] ≠ []) :
    (d.clientFor server).2.countOf server = d.countOf server + 1 := by
  unfold clientFor
  cases h : d.servers.find? server with
  | none => exact absurd (by rw [clientsOf?, h, Option.map_none, Option.getD_none]) hne
  | some i =>
    have hclients : i.clients ≠ [] := by
      rwa [clientsOf?, h, Option.map_some, Option.getD_some] at hne
    unfold countOf
    dsimp only
    rw [Table.find?_insert, if_pos rfl, h, Option.map_some, Option.map_some, picks_pick hclients]
    rfl

/-- One server is asked: the client whose turn it is by the count. -/
theorem Turned.clientFor_fst (h : d.Turned client snapshot picks) (server : String) :
    (d.clientFor server).1 =
      turn (clientsIn client snapshot server) (picks server % UInt64.size) := by
  rw [Directory.clientFor_fst, h.clients]
  by_cases hne : clientsIn client snapshot server = []
  · rw [hne, turn_eq_none_iff.mpr rfl, turn_eq_none_iff.mpr rfl]
  · rw [h.counted server hne, UInt64.toNat_ofNat']

/-- One server is asked: its count moves. -/
theorem Turned.clientFor (h : d.Turned client snapshot picks) (server : String) :
    (d.clientFor server).2.Turned client snapshot
      fun other => picks other + if other = server then 1 else 0 := by
  refine ⟨h.toHolds.congr (clientsOf?_clientFor d server), fun other hne => ?_⟩
  by_cases hs : other = server
  · subst hs
    rw [countOf_clientFor_self (by rwa [h.clients]), h.counted other hne, if_pos rfl,
      UInt64.ofNat_add]
    rfl
  · rw [countOf_clientFor_of_ne hs, h.counted other hne, if_neg hs, Nat.add_zero]

theorem nodup_keys (d : Directory α) : d.servers.keys.Nodup :=
  d.servers.nodup

theorem Turned.mem_keys (h : d.Turned client snapshot picks) {server : String} :
    server ∈ d.servers.keys ↔ clientsIn client snapshot server ≠ [] := by
  rw [Table.mem_keys, ← h.known, clientsOf?, Option.isSome_map]

/-- The known servers are those for which it is a client's turn. -/
theorem Turned.isSome_turn (h : d.Turned client snapshot picks) {server : String} {n : Nat} :
    server ∈ d.servers.keys ↔ (turn (clientsIn client snapshot server) n).isSome := by
  rw [h.mem_keys, Option.isSome_iff_ne_none, ne_eq, ne_eq, turn_eq_none_iff]

/-- Several servers are asked one after the other: each gives the client whose turn it is, and the
counts of all of them move. -/
theorem Turned.foldl_clientFor (h : d.Turned client snapshot picks) {servers : List String}
    (hnodup : servers.Nodup) (made : List α) :
    let x := servers.foldl
      (fun (x : List α × Directory α) server =>
        (x.1 ++ (x.2.clientFor server).1.toList, (x.2.clientFor server).2)) (made, d)
    x.1 = made ++ servers.filterMap (fun server =>
      turn (clientsIn client snapshot server) (picks server % UInt64.size)) ∧
    x.2.Turned client snapshot fun server => picks server + if server ∈ servers then 1 else 0 := by
  induction servers generalizing d picks made with
  | nil => exact ⟨(List.append_nil made).symm, h.congr fun _ _ => rfl⟩
  | cons server servers ih =>
    obtain ⟨hserver, hnodup⟩ := List.nodup_cons.mp hnodup
    obtain ⟨hmade, hturned⟩ :=
      ih (h.clientFor server) hnodup (made ++ (d.clientFor server).1.toList)
    refine ⟨?_, hturned.congr fun other _ => ?_⟩
    · rw [List.foldl_cons, hmade, List.append_assoc, h.clientFor_fst]
      have hrest : servers.filterMap (fun other => turn (clientsIn client snapshot other)
            ((picks other + if other = server then 1 else 0) % UInt64.size)) =
          servers.filterMap fun other =>
            turn (clientsIn client snapshot other) (picks other % UInt64.size) :=
        List.filterMap_congr fun other hother => by
          rw [if_neg (ne_of_mem_of_not_mem hother hserver), Nat.add_zero]
      rw [hrest, List.filterMap_cons]
      cases turn (clientsIn client snapshot server) (picks server % UInt64.size) <;> rfl
    · by_cases hs : other = server
      · rw [if_pos hs, if_neg (hs ▸ hserver), if_pos (hs ▸ List.mem_cons_self ..)]
      · rw [if_neg hs, Nat.add_zero]
        exact congrArg (picks other + ·) (if_congr (by simp [hs]) rfl rfl)

/-- All servers are asked. -/
theorem Turned.allClients_fst (h : d.Turned client snapshot picks) : d.allClients.1 =
    d.servers.keys.filterMap fun server =>
      turn (clientsIn client snapshot server) (picks server % UInt64.size) :=
  (h.foldl_clientFor d.nodup_keys []).1

/-- All servers are asked: every count moves. -/
theorem Turned.allClients (h : d.Turned client snapshot picks) :
    d.allClients.2.Turned client snapshot fun server => picks server + 1 := by
  refine (h.foldl_clientFor d.nodup_keys []).2.congr fun _ hne => ?_
  rw [if_pos (h.mem_keys.mpr hne)]

/-! ## Calls -/

/-- What a directory is asked for or given. -/
inductive Call where
  | apply (snapshot : Snapshot)
  | clientFor (server : String)
  | allClients

namespace Call

/-- The snapshot that a call gives. -/
def snapshot? : Call → Option Snapshot
  | apply snapshot => some snapshot
  | clientFor _ | allClients => none

/-- Whether a call asks for a client of a server. -/
def asks (server : String) : Call → Bool
  | apply _ => false
  | clientFor other => other = server
  | allClients => true

/-- The snapshot that was given last. A new directory is that of the empty one. -/
def latest (calls : List Call) : Snapshot :=
  (calls.filterMap snapshot?).getLast?.getD []

/-- How often a client of a server was asked for since the latest snapshot. -/
def picksOf (calls : List Call) (server : String) : Nat :=
  (calls.rtakeWhile fun c => c.snapshot?.isNone).countP (asks server)

theorem latest_concat (calls : List Call) (c : Call) :
    latest (calls ++ [c]) = c.snapshot?.getD (latest calls) := by
  unfold latest
  rw [List.filterMap_append, List.getLast?_append, List.filterMap_cons, List.filterMap_nil]
  cases c.snapshot? <;> rfl

theorem picksOf_concat (calls : List Call) (c : Call) (server : String) :
    picksOf (calls ++ [c]) server =
      if c.snapshot?.isSome then 0 else picksOf calls server + if c.asks server then 1 else 0 := by
  unfold picksOf
  rw [List.rtakeWhile_concat]
  cases c.snapshot? with
  | some => rfl
  | none => simp [List.countP_append, List.countP_cons]

end Call

/-- A directory, and the clients that were picked since its latest snapshot, each with its
server. -/
structure Served (α : Type) where
  followed : FollowedDirectory α
  picked : List (String × α)

namespace Served

variable {x : Served α}

def new : Served α :=
  ⟨⟨.empty, false⟩, []⟩

def directory (x : Served α) : Directory α :=
  x.followed.directory

/-- Picks are made, which leave this directory. -/
def pick (x : Served α) (made : List (String × α)) (directory : Directory α) : Served α :=
  ⟨{ x.followed with directory }, x.picked ++ made⟩

/-- A call. All clients come in the order in which the servers are known. -/
def step (client : ServiceEntry → α) (x : Served α) : Call → Served α
  | .apply snapshot => ⟨x.followed.apply client snapshot, []⟩
  | .clientFor server =>
    x.pick ((x.directory.clientFor server).1.toList.map (server, ·))
      (x.directory.clientFor server).2
  | .allClients =>
    x.pick (x.directory.servers.keys.zip x.directory.allClients.1) x.directory.allClients.2

def after (client : ServiceEntry → α) (calls : List Call) : Served α :=
  calls.foldl (step client) new

theorem after_concat (client : ServiceEntry → α) (calls : List Call) (c : Call) :
    after client (calls ++ [c]) = (after client calls).step client c :=
  List.foldl_append

/-- The client of a pick, if it is of a server. -/
def clientOf? (server : String) (p : String × α) : Option α :=
  if p.1 = server then some p.2 else none

/-- The clients of a server that were picked since the latest snapshot, in order. -/
def pickedOf (x : Served α) (server : String) : List α :=
  x.picked.filterMap (clientOf? server)

theorem pickedOf_pick (made : List (String × α)) (directory : Directory α) (server : String) :
    (x.pick made directory).pickedOf server =
      x.pickedOf server ++ made.filterMap (clientOf? server) :=
  List.filterMap_append

/-- When every server gives a client, the one of a server stands in the server's place. -/
theorem filterMap_clientOf?_zip {servers : List String} {f : String → Option α}
    (hnodup : servers.Nodup) (hsome : ∀ server ∈ servers, (f server).isSome) (server : String) :
    (servers.zip (servers.filterMap f)).filterMap (clientOf? server) =
      if server ∈ servers then (f server).toList else [] := by
  induction servers with
  | nil => rfl
  | cons first servers ih =>
    obtain ⟨hfirst, hnodup⟩ := List.nodup_cons.mp hnodup
    obtain ⟨a, ha⟩ := Option.isSome_iff_exists.mp (hsome first (List.mem_cons_self ..))
    have ih := ih hnodup fun other hother => hsome other (List.mem_cons_of_mem _ hother)
    rw [List.filterMap_cons, ha, List.zip_cons_cons, List.filterMap_cons, clientOf?, ih]
    by_cases hs : first = server
    · subst hs
      simp [hfirst, ha]
    · simp [hs, Ne.symm hs]

theorem forall₂_filterMap {servers : List String} {f : String → Option α}
    (hsome : ∀ server ∈ servers, (f server).isSome) :
    List.Forall₂ (fun server a => f server = some a) servers (servers.filterMap f) := by
  induction servers with
  | nil => exact .nil
  | cons first servers ih =>
    obtain ⟨a, ha⟩ := Option.isSome_iff_exists.mp (hsome first (List.mem_cons_self ..))
    rw [List.filterMap_cons, ha]
    exact .cons ha (ih fun other hother => hsome other (List.mem_cons_of_mem _ hother))

/-- The directory is in turn, and as long as the counts do not overflow the clients that were picked
are the first turns. -/
structure InTurn (x : Served α) (client : ServiceEntry → α) (snapshot : Snapshot)
    (picks : String → Nat) : Prop where
  turned : x.directory.Turned client snapshot picks
  picked : ∀ server, picks server ≤ UInt64.size →
    x.pickedOf server = turns (clientsIn client snapshot server) (picks server)

/-- Picks that take the turns of some servers. -/
theorem InTurn.pick (h : x.InTurn client snapshot picks) (asked : String → Bool)
    {made : List (String × α)} {directory : Directory α}
    (hturned : directory.Turned client snapshot fun server =>
      picks server + if asked server then 1 else 0)
    (hmade : ∀ server, made.filterMap (clientOf? server) =
      if asked server then
        (turn (clientsIn client snapshot server) (picks server % UInt64.size)).toList else []) :
    (x.pick made directory).InTurn client snapshot fun server =>
      picks server + if asked server then 1 else 0 := by
  refine ⟨hturned, fun server hbound => ?_⟩
  rw [pickedOf_pick, hmade]
  cases hasked : asked server with
  | false =>
    rw [hasked] at hbound
    simpa using h.picked server hbound
  | true =>
    rw [hasked, if_pos rfl] at hbound
    rw [if_pos rfl, if_pos rfl, turns_succ, h.picked server (Nat.le_of_succ_le hbound),
      Nat.mod_eq_of_lt hbound]

/-- **One call.** What is picked are the next turns; a snapshot starts them anew. -/
theorem InTurn.step {calls : List Call}
    (h : x.InTurn client (Call.latest calls) (Call.picksOf calls)) (c : Call) :
    (x.step client c).InTurn client (Call.latest (calls ++ [c])) (Call.picksOf (calls ++ [c])) := by
  have hpicks : Call.picksOf (calls ++ [c]) = fun server => if c.snapshot?.isSome then 0 else
      Call.picksOf calls server + if c.asks server then 1 else 0 :=
    funext (Call.picksOf_concat calls c)
  rw [hpicks, Call.latest_concat]
  cases c with
  | apply snapshot => exact ⟨turned_ofSnapshot client snapshot, fun _ _ => rfl⟩
  | clientFor server =>
    refine h.pick (fun other => (Call.clientFor server).asks other)
      ((h.turned.clientFor server).congr fun other _ => ?_) fun other => ?_
    · simp only [Call.asks, decide_eq_true_eq, @eq_comm _ server]
    · rw [h.turned.clientFor_fst]
      by_cases hs : other = server
      · subst hs
        cases turn (clientsIn client (Call.latest calls) other)
          (Call.picksOf calls other % UInt64.size) <;> simp [clientOf?, Call.asks]
      · cases turn (clientsIn client (Call.latest calls) server)
          (Call.picksOf calls server % UInt64.size) <;>
            simp [clientOf?, Call.asks, Ne.symm hs]
  | allClients =>
    refine h.pick (fun _ => true) h.turned.allClients fun other => ?_
    rw [h.turned.allClients_fst, if_pos rfl,
      filterMap_clientOf?_zip x.directory.nodup_keys fun server => h.turned.isSome_turn.mp]
    split
    next => rfl
    next hunknown =>
      rw [h.turned.isSome_turn, Option.not_isSome_iff_eq_none] at hunknown
      rw [hunknown]
      rfl

theorem inTurn_after (client : ServiceEntry → α) (calls : List Call) :
    (after client calls).InTurn client (Call.latest calls) (Call.picksOf calls) := by
  induction calls using List.reverseRecOn with
  | nil => exact ⟨turned_ofSnapshot client [], fun _ _ => rfl⟩
  | append_singleton calls c ih =>
    rw [after_concat]
    exact ih.step c

/-- Whatever a new directory is asked for and given, after each call it answers from the latest
snapshot alone. A server without clients in it gives none, and each other one a client of its own;
all clients are one of each server that has clients. As long as the picks since the snapshot do not
overflow their count, the next one is the client whose turn it is, those that were made are the
turns from the first on, and as many in a row as the server has clients are all of these, each
once. -/
theorem clients_in_turn (client : ServiceEntry → α) (calls : List Call) :
    let x := after client calls
    let clientsOf := clientsIn client (Call.latest calls)
    let picks := Call.picksOf calls
    (∀ server, ((x.directory.clientFor server).1 = none ↔ clientsOf server = []) ∧
      (∀ a, (x.directory.clientFor server).1 = some a → a ∈ clientsOf server) ∧
      (picks server < UInt64.size →
        (x.directory.clientFor server).1 = turn (clientsOf server) (picks server))) ∧
    (∃ servers : List String, servers.Nodup ∧
      (∀ server, server ∈ servers ↔ clientsOf server ≠ []) ∧
      List.Forall₂ (fun server a => a ∈ clientsOf server ∧
        (picks server < UInt64.size → turn (clientsOf server) (picks server) = some a))
        servers x.directory.allClients.1) ∧
    ∀ server, picks server ≤ UInt64.size →
      x.pickedOf server = turns (clientsOf server) (picks server) ∧
      ∀ window, window <:+: x.pickedOf server → window.length = (clientsOf server).length →
        window.Perm (clientsOf server) := by
  intro x clientsOf picks
  have h : x.InTurn client (Call.latest calls) picks := inTurn_after client calls
  refine ⟨fun server => ?_, ⟨x.directory.servers.keys, x.directory.nodup_keys,
    fun server => h.turned.mem_keys, ?_⟩, fun server hbound => ⟨h.picked server hbound, ?_⟩⟩
  · rw [h.turned.clientFor_fst]
    exact ⟨turn_eq_none_iff, fun a => mem_of_turn, fun hbound => by rw [Nat.mod_eq_of_lt hbound]⟩
  · rw [h.turned.allClients_fst]
    refine (forall₂_filterMap fun server => h.turned.isSome_turn.mp).imp fun server a hturn => ?_
    exact ⟨mem_of_turn hturn, fun hbound => by rwa [Nat.mod_eq_of_lt hbound] at hturn⟩
  · intro window hwindow hlength
    rw [h.picked server hbound] at hwindow
    exact perm_of_infix_turns hwindow hlength

/-- Two clients of a server, asked for in both ways. The earlier snapshot has another server, and
the entry without a type does not count. -/
theorem two_clients_in_turn :
    let first : Snapshot := [⟨"g3", "ws", "10.0.0.3:1"⟩]
    let second : Snapshot :=
      [⟨"g1", "tcp", "10.0.0.1:2"⟩, ⟨"g2", "", "10.0.0.2:1"⟩, ⟨"g1", "ws", "10.0.0.1:1"⟩]
    let calls : List Call :=
      [.apply first, .clientFor "g3", .apply second, .clientFor "g1", .allClients, .clientFor "g1"]
    let x := after ServiceEntry.address calls
    (Call.picksOf calls "g1" < UInt64.size ∧
      (x.directory.clientFor "g1").1 = some "10.0.0.1:1") ∧
      (x.directory.clientFor "g3").1 = none ∧
      x.pickedOf "g1" = ["10.0.0.1:2", "10.0.0.1:1", "10.0.0.1:2"] := by
  intro first second calls x
  have hclients : clientsIn ServiceEntry.address (Call.latest calls) "g1" =
      ["10.0.0.1:2", "10.0.0.1:1"] := by decide +kernel
  have hpicks : Call.picksOf calls "g1" = 3 := by decide +kernel
  obtain ⟨hone, -, hpicked⟩ := clients_in_turn ServiceEntry.address calls
  refine ⟨⟨by rw [hpicks]; decide, ?_⟩, ?_, ?_⟩
  · rw [(hone "g1").2.2 (by rw [hpicks]; decide), hclients, hpicks]
    rfl
  · exact (hone "g3").1.mpr (by decide +kernel)
  · rw [(hpicked "g1" (by rw [hpicks]; decide)).1, hclients, hpicks]
    rfl

end Served

end Directory

end ChatRelay
