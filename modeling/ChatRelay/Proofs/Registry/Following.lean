import ChatRelay.Registry.Directory
import ChatRelay.Registry.Watch
import Mathlib.Data.List.Induction

/-!
# Following the registry

A directory that follows a watcher takes in what the watcher publishes before the next poll is
made. Between the polls clients are picked, which moves the turns of their servers and nothing else.
So a directory is judged in two ways: by the clients that it holds for each server, which are those
of the latest snapshot (`Directory.Holds`), and as a whole, with the turns, which only a poll that
brings another snapshot may start anew.

Nothing is assumed about where the outcomes of the polls come from. A watcher without an interval
makes no polls and is left out.
-/

namespace ChatRelay

namespace Directory

variable {α : Type} {client : ServiceEntry → α} {d : Directory α} {snapshot : Snapshot}

/-! ## The clients of a snapshot -/

/-- The clients of a server in a snapshot, in its order. Entries without a server or a type do not
count. -/
def clientsIn (client : ServiceEntry → α) (snapshot : Snapshot) (server : String) : List α :=
  (snapshot.filter fun e => e.serverId = server ∧ e.serverId ≠ "" ∧ e.serverType ≠ "").map client

/-- The clients that are kept for a server, if it is known. -/
def clientsOf? (d : Directory α) (server : String) : Option (List α) :=
  (d.servers.find? server).map Instances.clients

/-- The directory knows the servers of a snapshot, each with its clients, and no others. -/
structure Holds (d : Directory α) (client : ServiceEntry → α) (snapshot : Snapshot) : Prop where
  clients : ∀ server, (d.clientsOf? server).getD [] = clientsIn client snapshot server
  known : ∀ server, (d.clientsOf? server).isSome ↔ clientsIn client snapshot server ≠ []

theorem Holds.congr {d' : Directory α} (h : d.Holds client snapshot)
    (hd : ∀ server, d'.clientsOf? server = d.clientsOf? server) : d'.Holds client snapshot where
  clients server := by rw [hd, h.clients]
  known server := by rw [hd, h.known]

theorem clientsIn_concat (client : ServiceEntry → α) (snapshot : Snapshot) (e : ServiceEntry)
    (server : String) : clientsIn client (snapshot ++ [e]) server =
      clientsIn client snapshot server ++
        if e.serverId = server ∧ e.serverId ≠ "" ∧ e.serverType ≠ "" then [client e] else [] := by
  unfold clientsIn
  rw [List.filter_append, List.map_append, List.filter_cons, List.filter_nil]
  simp only [decide_eq_true_eq]
  split <;> rfl

theorem clientsOf?_add (client : ServiceEntry → α) (d : Directory α) (e : ServiceEntry)
    (server : String) : (d.add client e).clientsOf? server =
      if e.serverId = server ∧ e.serverId ≠ "" ∧ e.serverType ≠ "" then
        some ((d.clientsOf? server).getD [] ++ [client e])
      else d.clientsOf? server := by
  have hskip : e.serverId.isEmpty = true ∨ e.serverType.isEmpty = true ↔
      ¬(e.serverId ≠ "" ∧ e.serverType ≠ "") := by
    rw [String.isEmpty_iff, String.isEmpty_iff, not_and_or, not_not, not_not]
  unfold add clientsOf?
  by_cases hcomplete : e.serverId ≠ "" ∧ e.serverType ≠ ""
  · rw [if_neg (fun h => hskip.mp h hcomplete), Table.find?_insert]
    by_cases hs : e.serverId = server
    · subst hs
      rw [if_pos rfl, if_pos ⟨rfl, hcomplete⟩]
      cases d.servers.find? e.serverId <;> rfl
    · rw [if_neg (Ne.symm hs), if_neg (fun h => hs h.1)]
  · rw [if_pos (hskip.mpr hcomplete), if_neg (fun h => hcomplete h.2)]

/-- A directory that is built from a snapshot holds its clients. -/
theorem holds_ofSnapshot (client : ServiceEntry → α) (snapshot : Snapshot) :
    (ofSnapshot client snapshot).Holds client snapshot := by
  induction snapshot using List.reverseRecOn with
  | nil => exact ⟨fun _ => rfl, fun _ => by simp [ofSnapshot, clientsOf?, empty, clientsIn]⟩
  | append_singleton snapshot e ih =>
    have hbuilt : ofSnapshot client (snapshot ++ [e]) = (ofSnapshot client snapshot).add client e :=
      List.foldl_append
    refine ⟨fun server => ?_, fun server => ?_⟩
    · rw [hbuilt, clientsOf?_add, clientsIn_concat, ← ih.clients]
      split <;> simp
    · rw [hbuilt, clientsOf?_add, clientsIn_concat]
      split
      next => simp
      next => rw [ih.known, List.append_nil]

/-- A directory that holds no clients knows no server. -/
theorem Holds.size_eq_zero (h : d.Holds client []) : d.size = 0 := by
  rw [size, Table.size, List.length_eq_zero_iff]
  cases he : d.servers.entries with
  | nil => rfl
  | cons e es =>
    have hfound : (d.servers.find? e.1).isSome = true := by
      rw [← Table.mem_keys, Table.keys, he]
      exact List.mem_cons_self ..
    have hlisted : clientsIn client [] e.1 ≠ [] :=
      (h.known e.1).mp (by rw [clientsOf?, Option.isSome_map, hfound])
    exact absurd rfl hlisted

/-! ## Picking -/

theorem clients_pick (i : Instances α) : i.pick.2.clients = i.clients := by
  unfold Instances.pick
  split <;> rfl

/-- To pick a client of a server leaves all clients where they are. -/
theorem clientsOf?_clientFor (d : Directory α) (picked server : String) :
    (d.clientFor picked).2.clientsOf? server = d.clientsOf? server := by
  unfold clientFor
  split
  next => rfl
  next i hi =>
    unfold clientsOf?
    dsimp only
    rw [Table.find?_insert]
    split
    next hs => rw [hs, hi, Option.map_some, Option.map_some, clients_pick]
    next => rfl

theorem clientsOf?_allClients (d : Directory α) (server : String) :
    d.allClients.2.clientsOf? server = d.clientsOf? server := by
  unfold allClients
  refine List.foldlRecOn (motive := fun x : List α × Directory α =>
    x.2.clientsOf? server = d.clientsOf? server) _ _ rfl ?_
  intro x hx name _
  exact (clientsOf?_clientFor x.2 name server).trans hx

end Directory

/-! ## A watcher and its follower -/

/-- A watcher, and a directory that follows it. -/
structure Following (α : Type) where
  watch : Watch
  followed : FollowedDirectory α

namespace Following

variable {α ε : Type}

/-- What happens: the watcher polls, or clients are picked. -/
inductive Event (ε : Type) where
  | poll (outcome : Except ε Snapshot)
  | pick (server : String)
  | pickAll

/-- The snapshot that a poll brought. -/
def Event.snapshot? : Event ε → Option Snapshot
  | poll (.ok snapshot) => some snapshot
  | poll (.error _) | pick _ | pickAll => none

/-- The snapshot that the latest successful poll brought. -/
def latest? (events : List (Event ε)) : Option Snapshot :=
  (events.filterMap Event.snapshot?).getLast?

/-- What a watcher has published after events; it begins with the empty snapshot. -/
def published (events : List (Event ε)) : Snapshot :=
  (latest? events).getD []

/-- A directory, whatever it held before, begins to follow a watcher that starts. -/
def start (client : ServiceEntry → α) (interval now : Nat) (d : FollowedDirectory α) :
    Following α :=
  let watch := Watch.new interval now
  ⟨watch, d.follow client watch.snapshot⟩

def directory (x : Following α) : Directory α :=
  x.followed.directory

/-- Change the directory alone. -/
def withDirectory (x : Following α) (directory : Directory α) : Following α :=
  { x with followed := { x.followed with directory } }

/-- An event. What a poll publishes is taken in at once. -/
def step (client : ServiceEntry → α) (x : Following α) : Event ε → Following α
  | .poll outcome =>
    let (isChanged, watch) := (x.watch.poll outcome).look
    ⟨watch, if isChanged = some true then (x.followed.publish client watch.snapshot).2
      else x.followed⟩
  | .pick server => x.withDirectory (x.directory.clientFor server).2
  | .pickAll => x.withDirectory x.directory.allClients.2

def after (client : ServiceEntry → α) (x : Following α) (events : List (Event ε)) : Following α :=
  events.foldl (step client) x

theorem after_concat (client : ServiceEntry → α) (x : Following α) (events : List (Event ε))
    (e : Event ε) : x.after client (events ++ [e]) = (x.after client events).step client e :=
  List.foldl_append

theorem latest?_concat (events : List (Event ε)) (e : Event ε) :
    latest? (events ++ [e]) = e.snapshot?.or (latest? events) := by
  unfold latest?
  rw [List.filterMap_append, List.getLast?_append, List.filterMap_cons, List.filterMap_nil]
  cases e.snapshot? <;> rfl

theorem published_concat (events : List (Event ε)) (e : Event ε) :
    published (events ++ [e]) = e.snapshot?.getD (published events) := by
  rw [published, latest?_concat, published]
  cases e.snapshot? <;> rfl

/-! ## What is kept -/

variable {client : ServiceEntry → α} {x : Following α} {snapshot found : Snapshot}

/-- The directory has taken in all that the watcher has published. -/
structure UpToDate (x : Following α) (client : ServiceEntry → α) (snapshot : Snapshot) : Prop where
  isAlive : x.watch.isAlive = true
  isChanged : x.watch.isChanged = false
  isFollowing : x.followed.isFollowing = true
  holds : x.directory.Holds client snapshot
  snapshot_eq : x.watch.snapshot = snapshot

theorem upToDate_start (client : ServiceEntry → α) {interval : Nat} (hi : interval ≠ 0)
    (now : Nat) (d : FollowedDirectory α) : (start client interval now d).UpToDate client [] where
  isAlive := decide_eq_true hi
  isChanged := rfl
  isFollowing := rfl
  holds := Directory.holds_ofSnapshot client []
  snapshot_eq := rfl

/-- The watcher after a poll that brought nothing new. -/
def polledInVain (x : Following α) : Following α :=
  { x with watch := { x.watch with polls := x.watch.polls + 1 } }

/-- A poll that brings nothing new leaves the directory as it is. -/
theorem UpToDate.step_poll_of_same (h : x.UpToDate client snapshot) {outcome : Except ε Snapshot}
    (ho : ∀ found, outcome = .ok found → found = snapshot) :
    x.step client (.poll outcome) = x.polledInVain := by
  have hpoll : x.watch.poll outcome = { x.watch with polls := x.watch.polls + 1 } := by
    unfold Watch.poll
    cases outcome with
    | error _ => rfl
    | ok found => exact if_pos ((ho found rfl).trans h.snapshot_eq.symm)
  have hlook : (x.watch.poll outcome).look =
      (some false, { x.watch with polls := x.watch.polls + 1 }) := by
    rw [hpoll, Watch.look, ← h.isChanged]
    exact if_pos h.isAlive
  rw [step, hlook]
  rfl

/-- A poll that brings another snapshot has the directory built anew. -/
theorem UpToDate.step_poll_of_ne (h : x.UpToDate client snapshot) (hne : found ≠ snapshot) :
    x.step client (.poll (.ok found : Except ε Snapshot)) =
      ⟨{ x.watch with polls := x.watch.polls + 1, snapshot := found },
        x.followed.apply client found⟩ := by
  have hpoll : x.watch.poll (.ok found : Except ε Snapshot) =
      { x.watch with polls := x.watch.polls + 1, snapshot := found, isChanged := true } := by
    unfold Watch.poll
    exact if_neg (fun he => hne (he.trans h.snapshot_eq))
  have hlook : (x.watch.poll (.ok found : Except ε Snapshot)).look =
      (some true, { x.watch with polls := x.watch.polls + 1, snapshot := found }) := by
    rw [hpoll, Watch.look, ← h.isChanged]
    exact if_pos h.isAlive
  rw [step, hlook]
  simp only [if_true, FollowedDirectory.publish, h.isFollowing]

/-- **One event.** The directory stays up to date. -/
theorem UpToDate.step (h : x.UpToDate client snapshot) (e : Event ε) :
    (x.step client e).UpToDate client (e.snapshot?.getD snapshot) := by
  have hpicked : ∀ {directory : Directory α},
      (∀ server, directory.clientsOf? server = x.directory.clientsOf? server) →
      (x.withDirectory directory).UpToDate client snapshot := fun hd =>
    ⟨h.isAlive, h.isChanged, h.isFollowing, h.holds.congr hd, h.snapshot_eq⟩
  have hvain : x.polledInVain.UpToDate client snapshot :=
    ⟨h.isAlive, h.isChanged, h.isFollowing, h.holds, h.snapshot_eq⟩
  cases e with
  | pick server => exact hpicked (Directory.clientsOf?_clientFor x.directory server)
  | pickAll => exact hpicked (Directory.clientsOf?_allClients x.directory)
  | poll outcome =>
    cases outcome with
    | error e =>
      have hnone : ∀ found, Except.error e = .ok found → found = snapshot := fun _ ho => by cases ho
      rw [h.step_poll_of_same hnone]
      exact hvain
    | ok found =>
      by_cases he : found = snapshot
      · rw [h.step_poll_of_same fun _ ho => (Except.ok.inj ho).symm.trans he, he]
        exact hvain
      · rw [h.step_poll_of_ne he]
        exact ⟨h.isAlive, h.isChanged, h.isFollowing, Directory.holds_ofSnapshot client found, rfl⟩

/-- **A run.** The directory is up to date after all events. -/
theorem upToDate_after (hx : x.UpToDate client []) (events : List (Event ε)) :
    (x.after client events).UpToDate client (published events) := by
  induction events using List.reverseRecOn with
  | nil => exact hx
  | append_singleton events e ih =>
    rw [after_concat, published_concat]
    exact ih.step e

/-- However the polls go and whatever is picked between them, a directory that follows a watcher
holds the clients of the latest snapshot, and none as long as no poll has succeeded. A poll that
fails, and one that brings what is published already, change nothing in it, no turn either; another
snapshot has it built anew. -/
theorem follows_latest (client : ServiceEntry → α) (interval now : Nat) (d : FollowedDirectory α)
    (events : List (Event ε)) (hi : interval ≠ 0) :
    let x := (start client interval now d).after client events
    x.directory.Holds client (published events) ∧
    (latest? events = none → x.directory.size = 0) ∧
    (∀ outcome : Except ε Snapshot, (∀ found, outcome = .ok found → found = published events) →
      (x.step client (.poll outcome)).directory = x.directory) ∧
    ∀ found, found ≠ published events →
      (x.step client (.poll (.ok found : Except ε Snapshot))).directory =
        .ofSnapshot client found := by
  intro x
  have h : x.UpToDate client (published events) :=
    upToDate_after (upToDate_start client hi now d) events
  refine ⟨h.holds, fun hnone => ?_, fun outcome ho => ?_, fun found hne => ?_⟩
  · have hempty : published events = [] := by rw [published, hnone, Option.getD_none]
    exact (hempty ▸ h.holds).size_eq_zero
  · rw [h.step_poll_of_same ho]
    rfl
  · rw [h.step_poll_of_ne hne]
    rfl

/-- Two clients of a server are picked in turn across a poll that fails and one that brings nothing
new. An entry without a type is left out. -/
theorem follows_latest_in_turn :
    let snapshot : Snapshot :=
      [⟨"g1", "tcp", "10.0.0.1:2"⟩, ⟨"g1", "ws", "10.0.0.1:1"⟩, ⟨"g2", "", "10.0.0.2:1"⟩]
    let events : List (Event Unit) := [.poll (.error ()), .poll (.ok snapshot), .pick "g1",
      .poll (.error ()), .poll (.ok snapshot), .pickAll, .pick "g1"]
    let x := (start ServiceEntry.address 5 0 ⟨.empty, false⟩).after ServiceEntry.address events
    (5 ≠ 0 ∧ x.directory.Holds ServiceEntry.address snapshot) ∧ x.directory.size = 1 ∧
      (x.directory.clientFor "g1").1 = some "10.0.0.1:1" ∧
      ((x.step ServiceEntry.address (.poll (.ok snapshot : Except Unit _))).directory.clientFor
        "g1").1 = some "10.0.0.1:1" := by
  intro snapshot events x
  have hlatest : published events = snapshot := rfl
  obtain ⟨hholds, -, hsame, -⟩ :=
    follows_latest ServiceEntry.address 5 0 ⟨.empty, false⟩ events (by decide)
  have hpick : (x.directory.clientFor "g1").1 = some "10.0.0.1:1" := by decide +kernel
  refine ⟨⟨by decide, hlatest ▸ hholds⟩, by decide +kernel, hpick, ?_⟩
  rw [hsame (.ok snapshot) fun found ho => (Except.ok.inj ho).symm.trans hlatest.symm]
  exact hpick

end Following

end ChatRelay
